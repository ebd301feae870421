import KernelLaunch.Error
import KernelLaunch.Number.Numeral

/-!
Leaves of nested values, and storing them in array elements. A cell of an array is converted
to the storage type without a check. A plain number must fit: an integer type that cannot
hold its integer part refuses it.
-/

namespace KernelLaunch.Host

open Number

/-- A number in double precision; too large ones are refused. -/
def doubleOfInt (n : Int) : Except Failure (Binary .double) :=
  let x := Binary.ofInt .double n
  match x.reading with
  | .finite _ _ _ => .ok x
  | _ => .error .outOfRange

/-- The integer part of a number. -/
def wholePart {p : Precision} (x : Binary p) : Except Failure Int :=
  match x.reading, x.truncated? with
  | _, some n => .ok n
  | .infinite _, none => .error .outOfRange
  | _, none => .error .badValue

/-- An integer stored in a type of integers, which has to hold it. -/
def storeWhole (signed : Bool) (width : Width) (n : Int) :
    Except Failure (BitVec width.bits) :=
  if Storage.holds signed width n then .ok (BitVec.ofInt width.bits n) else .error .outOfRange

/-- An integer stored in a type. A type of integers has to hold it exactly. -/
def storeInt (n : Int) : (target : Storage) → Except Failure target.Elem
  | .truth => .ok (n != 0 : Bool)
  | .integer signed width => storeWhole signed width n
  | .real p => (doubleOfInt n).map (·.convert p)
  | .complex parts =>
      (doubleOfInt n).map fun x => (x.convert parts.precision, Binary.ofInt parts.precision 0)

/-- A number stored in a type. A type of integers takes its integer part. -/
def storeReal (x : Binary .double) : (target : Storage) → Except Failure target.Elem
  | .truth => .ok (!x.isZero : Bool)
  | .integer signed width => do storeWhole signed width (← wholePart x)
  | .real p => .ok (x.convert p)
  | .complex parts => .ok (x.convert parts.precision, Binary.ofInt parts.precision 0)

/-- A complex number stored in a type. Only complex types take it. -/
def storeComplex (re im : Binary .double) : (target : Storage) → Except Failure target.Elem
  | .truth => .ok (!re.isZero || !im.isZero : Bool)
  | .complex parts => .ok (re.convert parts.precision, im.convert parts.precision)
  | _ => .error .wrongKind

/-- The absent value stored in a type: it is no number. -/
def storeAbsent : (target : Storage) → Except Failure target.Elem
  | .real p => .ok (Binary.undefined p)
  | .complex parts => .ok (Binary.undefined parts.precision, Binary.ofInt parts.precision 0)
  | .truth => .ok (false : Bool)
  | .integer _ _ => .error .wrongKind

/-- The number that a text writes, in double precision. -/
def realOfText (s : String) : Except Failure (Binary .double) :=
  match realOfText? s with
  | some x => .ok x
  | none => .error .badValue

/-- A text stored in a type: the numeral of an integer for a type of integers,
any numeral for the others. -/
def storeText (s : String) : (target : Storage) → Except Failure target.Elem
  | .truth => .ok (!s.isEmpty : Bool)
  | .integer signed width =>
      match integerOfText? s with
      | some n => storeWhole signed width n
      | none => .error .badValue
  | .real p => (realOfText s).map (·.convert p)
  | .complex parts =>
      (realOfText s).map fun x => (x.convert parts.precision, Binary.ofInt parts.precision 0)

/-- The integer part of an element on its own. -/
def elementWhole : (s : Storage) → s.Elem → Except Failure Int
  | .truth, b => .ok (cond b 1 0)
  | .integer signed _, b => .ok (Storage.integerValue signed b)
  | .real _, x => wholePart x
  | .complex _, z => wholePart z.1

/-- An element on its own stored in a type. A type of signed integers has to
hold its integer part; all others convert it. -/
def storeElement (s : Storage) (e : s.Elem) (target : Storage) :
    Except Failure target.Elem :=
  match target with
  | .integer true width => do storeWhole true width (← elementWhole s e)
  | target => .ok (s.convert target e)

/-- An atom stored in a type. -/
def Atom.store (target : Storage) : Atom → Except Failure target.Elem
  | .absent => storeAbsent target
  | .truth b => .ok (Storage.convert .truth target b)
  | .int n => storeInt n target
  | .real x => storeReal x target
  | .complex re im => storeComplex re im target
  | .text s => storeText s target
  | .element s e => storeElement s e target

/-- A leaf of a nested value. -/
inductive Leaf where
  /-- A value that stands alone or in a list. -/
  | alone (a : Atom)
  /-- A cell of an array. -/
  | cell (s : Storage) (e : s.Elem)

def Leaf.atom : Leaf → Atom
  | .alone a => a
  | .cell s e => .element s e

/-- A leaf stored in a type. -/
def Leaf.store (target : Storage) : Leaf → Except Failure target.Elem
  | .alone a => a.store target
  | .cell s e => .ok (s.convert target e)

mutual

/-- The leaves of a value in the shape of its nested lists; `none` if they are
ragged. -/
def Value.leaves? : Value → Option (Grid Leaf)
  | .atom a => some (.point (.alone a))
  | .array a => some (a.tensor.grid.map (Leaf.cell a.tensor.storage))
  | .list items => (leavesOfAll? items).bind Grid.stack?

/-- The leaves of several values. -/
def leavesOfAll? : List Value → Option (List (Grid Leaf))
  | [] => some []
  | v :: rest => do
      let g ← v.leaves?
      let others ← leavesOfAll? rest
      some (g :: others)

end

/-- The most dimensions that a tensor may have. -/
def maxDimensions : Nat := 64

/-- The leaves of a value in their shape. Ragged lists and those that are
nested too deeply have none. -/
def Value.leaves (v : Value) : Except Failure (Grid Leaf) :=
  match v.leaves? with
  | some g => if maxDimensions < g.shape.length then .error .badValue else .ok g
  | none => .error .badValue

end KernelLaunch.Host
