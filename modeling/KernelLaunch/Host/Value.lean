import KernelLaunch.Host.Grid
import KernelLaunch.Host.Storage

/-!
Host values: what a caller may hand to the library. A setting or an argument
can be any of them, so whether a value makes sense is decided where it is used,
never when it is made.
-/

namespace KernelLaunch.Host

open Number

/-- Elements of one storage type in a shape. -/
structure Tensor where
  storage : Storage
  grid : Grid storage.Elem

namespace Tensor

def shape (t : Tensor) : List Nat := t.grid.shape

/-- The number of elements. -/
def size (t : Tensor) : Nat := t.grid.size

/-- The elements stored another way. -/
def convert (t : Tensor) (target : Storage) : Tensor :=
  ⟨target, t.grid.map (Storage.convert t.storage target)⟩

@[simp] theorem convert_self (t : Tensor) : t.convert t.storage = t := by
  obtain ⟨storage, shape, cells, count⟩ := t
  simp only [convert, Grid.map, mk.injEq, heq_eq_eq, true_and, Grid.mk.injEq]
  conv => rhs; rw [← List.map_id cells]
  exact List.map_congr_left fun e _ => Storage.convert_self storage e

/-- Each element plus one. -/
def successor (t : Tensor) : Tensor := ⟨t.storage, t.grid.map (Storage.successor t.storage)⟩

end Tensor

/-- A tensor as it lies in the memory of the caller. -/
structure HostArray where
  tensor : Tensor
  /-- Whether the first index varies fastest in memory. -/
  columnMajor : Bool
  readOnly : Bool

/-- A fresh array: row by row, and writable. -/
def HostArray.ofTensor (t : Tensor) : HostArray := ⟨t, false, false⟩

/-- Whether the elements lie in memory in row-major order. An array with at
most one extent other than one lies so in either layout, and so does an empty
one. -/
def HostArray.isRowMajor (a : HostArray) : Bool :=
  !a.columnMajor || a.tensor.size == 0 || (a.tensor.shape.filter (· != 1)).length ≤ 1

/-- A value without parts that can be iterated over. -/
inductive Atom where
  | absent
  | truth (b : Bool)
  | int (n : Int)
  | real (x : Binary .double)
  | complex (re im : Binary .double)
  | text (s : String)
  /-- A single element with a storage type. -/
  | element (s : Storage) (e : s.Elem)

/-- What a caller may hand over. -/
inductive Value where
  | atom (a : Atom)
  | array (a : HostArray)
  | list (items : List Value)

namespace Value

abbrev absent : Value := .atom .absent

abbrev truth (b : Bool) : Value := .atom (.truth b)

/-- An integer of any size. -/
abbrev int (n : Int) : Value := .atom (.int n)

abbrev text (s : String) : Value := .atom (.text s)

/-- A fresh array. -/
abbrev ofTensor (t : Tensor) : Value := .array (.ofTensor t)

/-- A single element, or an array of the remaining dimensions. -/
def ofGrid (s : Storage) (g : Grid s.Elem) : Value :=
  match g.shape, g.cells with
  | [], [e] => .atom (.element s e)
  | _, _ => ofTensor ⟨s, g⟩

/-- Whether a value is a sequence of items; an array without dimensions passes
for one although it has no items. -/
def isSequence : Value → Bool
  | .atom (.text _) | .array _ | .list _ => true
  | .atom _ => false

/-- The items of a sequence: the characters of a text, the rows of an array. -/
def items? : Value → Option (List Value)
  | .atom (.text s) => some (s.toList.map fun c => .text (String.ofList [c]))
  | .atom _ => none
  | .list items => some items
  | .array a => a.tensor.grid.rows?.map fun rows => rows.map (ofGrid a.tensor.storage)

def text? : Value → Option String
  | .atom (.text s) => some s
  | _ => none

/-- Whether a value counts as true: it is no zero, not empty and not absent. An
array counts as true if one of its elements does. -/
def isTrue : Value → Bool
  | .atom .absent => false
  | .atom (.truth b) => b
  | .atom (.int n) => n != 0
  | .atom (.real x) => !x.isZero
  | .atom (.complex re im) => !re.isZero || !im.isZero
  | .atom (.text s) => !s.isEmpty
  | .atom (.element s e) => s.isNonzero e
  | .array a => a.tensor.grid.cells.any a.tensor.storage.isNonzero
  | .list items => !items.isEmpty

end Value

end KernelLaunch.Host
