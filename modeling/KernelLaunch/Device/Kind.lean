import KernelLaunch.Error

/-!
Device types. The type of a device is a bit field with one bit for each kind.
-/

namespace KernelLaunch.Device

open Host

-- Powers are those of numbers, also beside the powers of a monoid.
attribute [local instance (high)] instPowNat

inductive Kind where
  | default
  | cpu
  | gpu
  | accelerator
  | custom
  deriving DecidableEq, Repr

namespace Kind

/-- All kinds, in the order of their bits. -/
def all : List Kind := [default, cpu, gpu, accelerator, custom]

def name : Kind → String
  | default => "default"
  | cpu => "cpu"
  | gpu => "gpu"
  | accelerator => "accelerator"
  | custom => "custom"

def bit : Kind → Nat
  | default => 0
  | cpu => 1
  | gpu => 2
  | accelerator => 3
  | custom => 4

def ofName? (name : String) : Option Kind := all.find? (·.name == name)

/-- The kinds whose bits a number has. A negative number has all high bits. -/
def ofBits (bits : Int) : List Kind := all.filter fun k => bits / 2 ^ k.bit % 2 == 1

/-- The kinds of an element that stands for a number. -/
def ofElement (s : Storage) (e : s.Elem) : Except Failure (List Kind) :=
  match s, e with
  | .truth, b => .ok (ofBits (cond b 1 0))
  | .integer signed _, b => .ok (ofBits (Storage.integerValue signed b))
  | _, _ => .error .wrongKind

/-- The kinds of a value that stands for a number. An array does if it has one
element. -/
def ofValue : Value → Except Failure (List Kind)
  | .atom (.truth b) => .ok (ofBits (cond b 1 0))
  | .atom (.int n) => .ok (ofBits n)
  | .atom (.element s e) => ofElement s e
  | .array a =>
      match a.tensor.storage, a.tensor.grid.cells with
      | .real _, _ | .complex _, _ => .error .wrongKind
      | s, [e] => ofElement s e
      | _, _ => .error .badValue
  | _ => .error .wrongKind

end Kind

end KernelLaunch.Device
