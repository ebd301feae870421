import KernelLaunch.Host.Broadcast
import KernelLaunch.Host.Collect
import KernelLaunch.Host.Sequence

/-!
Products of values. Numbers are multiplied with each other, arrays cell by cell
after broadcasting, and an integer repeats a text or a list. A single element
is multiplied as an array without dimensions, but a complex number before one
of its own precision takes it for a number without a storage type.
-/

namespace KernelLaunch.Host

open Number

/-- The integer that an atom counts as in arithmetic. -/
def Atom.integer? : Atom → Option Int
  | .truth b => some (cond b 1 0)
  | .int n => some n
  | _ => none

/-- The product of two complex numbers, each a pair of its parts. -/
def complexMul {p : Precision} (a b : Binary p × Binary p) : Binary p × Binary p :=
  ((a.1.mul b.1).add (a.2.mul b.2).neg, (a.1.mul b.2).add (a.2.mul b.1))

/-- A number as a pair of its parts. -/
def Atom.parts? : Atom → Except Failure (Binary .double × Binary .double)
  | .complex re im => .ok (re, im)
  | .real x => .ok (x, .ofInt .double 0)
  | a =>
      match a.integer? with
      | some n => (doubleOfInt n).map fun x => (x, .ofInt .double 0)
      | none => .error .wrongKind

/-- The product of two numbers without a storage type. -/
def Atom.mul (a b : Atom) : Except Failure Atom :=
  match a, b, a.integer?, b.integer? with
  | .absent, _, _, _ | _, .absent, _, _ => .error .wrongKind
  | _, _, some m, some n => .ok (.int (m * n))
  | .real x, .real y, _, _ => .ok (.real (x.mul y))
  | .real x, _, _, some n => (doubleOfInt n).map fun y => .real (x.mul y)
  | _, .real y, some n, _ => (doubleOfInt n).map fun x => .real (x.mul y)
  | a, b, _, _ => do
      let (re, im) := complexMul (← a.parts?) (← b.parts?)
      .ok (.complex re im)

/-- The product of two elements of one storage type. -/
def Storage.mul : (s : Storage) → s.Elem → s.Elem → s.Elem
  | truth, a, b => a && b
  | integer _ _, a, b => BitVec.mul a b
  | real _, a, b => a.mul b
  | complex _, a, b => complexMul a b

/-- The storage type of the product of an element and a number without one. The
number adapts itself to the element, as far as it can be of its kind. -/
def Storage.beside (s : Storage) : Atom → Option Storage
  | .truth _ => some s
  | .int _ => some (match s with | truth => integer true .long | s => s)
  | .real _ =>
      some (match s with | truth | integer _ _ => real .double | s => s)
  | .complex _ _ =>
      some (match s with
        | truth | integer _ _ => complex .double
        | real p => complex (partsOfPrecision p)
        | complex parts => complex parts)
  | _ => none

/-- The product of the elements of a tensor and a number without a storage
type. -/
def Tensor.mulAtom (t : Tensor) (a : Atom) : Except Failure Tensor :=
  match t.storage.beside a with
  | none => .error .wrongKind
  | some u => do
      let b ← a.store u
      .ok ⟨u, t.grid.map fun e => u.mul (t.storage.convert u e) b⟩

/-- The product of two tensors, cell by cell after broadcasting. -/
def Tensor.mul (t w : Tensor) : Except Failure Tensor :=
  let u := Storage.common t.storage w.storage
  let mul (e : t.storage.Elem) (f : w.storage.Elem) : u.Elem :=
    u.mul (t.storage.convert u e) (w.storage.convert u f)
  match t.grid.broadcast? mul w.grid with
  | some grid => .ok ⟨u, grid⟩
  | none => .error .badValue

/-- The tensor that a list is multiplied as. -/
def Value.factor (v : Value) : Except Failure Tensor := do
  let _ ← v.leaves
  match v.kind with
  | .texts => .error .noProduct
  | _ => v.collect

def Tensor.mulValue (t : Tensor) (v : Value) : Except Failure Tensor :=
  match v with
  | .atom (.text _) => .error .noProduct
  | .atom (.element s e) => t.mul ⟨s, .point e⟩
  | .atom a => t.mulAtom a
  | .array a => t.mul a.tensor
  | .list _ => do t.mul (← v.factor)

/-- A tensor as a value. Without dimensions it is a single element. -/
def Tensor.value (t : Tensor) : Value := .ofGrid t.storage t.grid

/-- The product of two values. -/
def Value.mul (v w : Value) : Except Failure Value :=
  match v, w with
  | .array a, w => (a.tensor.mulValue w).map Tensor.value
  | v, .array b => (b.tensor.mulValue v).map Tensor.value
  | .list items, .atom a | .atom a, .list items => do
      return .list (← repeated (← a.repetitions) items)
  | .atom (.text s), .atom a | .atom a, .atom (.text s) => do
      return .text (← repeatedText (← a.repetitions) s)
  | .atom (.complex re im), .atom (.element (.real .double) x) =>
      ((Atom.complex re im).mul (.real x)).map .atom
  | .atom (.element s e), w => (Tensor.mulValue ⟨s, .point e⟩ w).map Tensor.value
  | v, .atom (.element s e) => (Tensor.mulValue ⟨s, .point e⟩ v).map Tensor.value
  | .atom a, .atom b => (a.mul b).map .atom
  | .list _, .list _ => .error .wrongKind

/-- The product of the items of a value, starting from one. -/
def Value.product (v : Value) : Except Failure Value := do
  let items ← v.items
  items.foldlM Value.mul (.int 1)

end KernelLaunch.Host
