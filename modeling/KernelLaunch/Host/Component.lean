import KernelLaunch.Host.Leaf

/-!
Values as integers: as components of work sizes, which have to be integers
exactly, and as positions in a sequence.
-/

namespace KernelLaunch.Host

open Number

/-- The integer part of a number, and whether the number equals it. -/
def realComponent {p : Precision} (x : Binary p) : Except Failure (Int × Bool) :=
  (wholePart x).map fun n => (n, x.isIntegral)

def elementComponent : (s : Storage) → s.Elem → Except Failure (Int × Bool)
  | .truth, b => .ok (cond b 1 0, true)
  | .integer signed _, b => .ok (Storage.integerValue signed b, true)
  | .real _, x => realComponent x
  | .complex _, z => (realComponent z.1).map fun (n, exact) => (n, exact && z.2.isZero)

/-- The integer part of a value, and whether the value equals it. A text is
never equal to the integer it writes, and of arrays only those without
dimensions have an integer part, unless they are complex. -/
def Value.integerPart : Value → Except Failure (Int × Bool)
  | .atom (.truth b) => .ok (cond b 1 0, true)
  | .atom (.int n) => .ok (n, true)
  | .atom (.real x) => realComponent x
  | .atom (.text s) =>
      match integerOfText? s with
      | some n => .ok (n, false)
      | none => .error .badValue
  | .atom (.element s e) => elementComponent s e
  | .array a =>
      match a.tensor with
      | ⟨.complex _, _⟩ => .error .wrongKind
      | ⟨s, ⟨[], [e], _⟩⟩ => elementComponent s e
      | _ => .error .wrongKind
  | .atom _ | .list _ => .error .wrongKind

def Value.component (v : Value) : Except Failure Int := do
  let (n, exact) ← v.integerPart
  if exact then .ok n else .error (.size (.notInteger v.exact))

/-- How an element compares with an integer; `none` if it is no number. A
complex element comes after an integer with its real part if its imaginary part
is positive. -/
def compareElement (s : Storage) (e : s.Elem) (n : Int) : Option Ordering :=
  match s, e with
  | .truth, b => some (compare (cond b 1 0) n)
  | .integer signed _, b => some (compare (Storage.integerValue signed b) n)
  | .real _, x => x.compareInt? n
  | .complex _, z => do (← z.1.compareInt? n).then (← z.2.compareInt? 0)

/-- How a value compares with an integer, if it does; `none` if it is no
number. Of arrays only those of one element compare. -/
def Value.compareInt (v : Value) (n : Int) : Except Failure (Option Ordering) :=
  match v with
  | .atom (.truth b) => .ok (some (compare (cond b 1 0) n))
  | .atom (.int m) => .ok (some (compare m n))
  | .atom (.real x) => .ok (x.compareInt? n)
  | .atom (.element s e) => .ok (compareElement s e n)
  | .array a =>
      match a.tensor.grid.cells with
      | [e] => .ok (compareElement a.tensor.storage e n)
      | _ => .error .badValue
  | .atom _ | .list _ => .error .wrongKind

/-- Whether a value lies in the half-open range from zero to a limit. -/
def Value.isBelow (v : Value) (limit : Int) : Except Failure Bool := do
  match ← v.compareInt 0 with
  | none | some .lt => .ok false
  | some _ => .ok ((← v.compareInt limit) == some .lt)

/-- A value as an index. Only integers and integer arrays without dimensions are. -/
def Value.position : Value → Except Failure Int
  | .atom (.truth b) => .ok (cond b 1 0)
  | .atom (.int n) => .ok n
  | .atom (.element (.integer signed _) b) => .ok (Storage.integerValue signed b)
  | .array a =>
      match a.tensor with
      | ⟨.integer signed _, ⟨[], [b], _⟩⟩ => .ok (Storage.integerValue signed b)
      | _ => .error .wrongKind
  | _ => .error .wrongKind

/-- The item at a position; negative positions count from the end. -/
def itemAt {α : Type} (items : List α) (position : Int) : Except Failure α :=
  let index := if position < 0 then position + items.length else position
  match if index < 0 then none else items[index.toNat]? with
  | some item => .ok item
  | none => .error .badPosition

end KernelLaunch.Host
