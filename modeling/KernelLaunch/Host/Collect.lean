import KernelLaunch.Host.Leaf

/-!
Collecting host values into tensors. Nested lists become the dimensions of a
tensor if they are nowhere ragged. The storage type is either asked for, and
then each leaf must fit it, or the common one of all leaves. Leaves that have
none are kept as texts or as objects, which do not make a tensor.
-/

namespace KernelLaunch.Host

open Number

/-- How the leaves of a value are kept together. -/
inductive LeafKind where
  | stored (s : Storage)
  | texts
  | objects
  deriving DecidableEq

/-- How leaves of two kinds are kept together. Texts stand for numbers as well,
and objects for everything. -/
def LeafKind.common : LeafKind → LeafKind → LeafKind
  | stored s, stored t => stored (s.common t)
  | objects, _ | _, objects => objects
  | _, _ => texts

/-- How an atom is kept by itself. -/
def Atom.kind : Atom → LeafKind
  | .absent => .objects
  | .text _ => .texts
  | .truth _ => .stored .truth
  | .int n =>
      if Storage.holds true .long n then .stored (.integer true .long)
      else if Storage.holds false .long n then .stored (.integer false .long)
      else .objects
  | .real _ => .stored (.real .double)
  | .complex _ _ => .stored (.complex .double)
  | .element s _ => .stored s

mutual

/-- The kinds of the parts of a value, also of arrays without elements. -/
def Value.kinds : Value → List LeafKind
  | .atom a => [a.kind]
  | .array a => [.stored a.tensor.storage]
  | .list items => kindsOfAll items

/-- The kinds of the parts of several values. -/
def kindsOfAll : List Value → List LeafKind
  | [] => []
  | v :: rest => v.kinds ++ kindsOfAll rest

end

/-- How all parts of a value are kept together. Without parts that is double
precision. -/
def Value.kind (v : Value) : LeafKind :=
  match v.kinds with
  | [] => .stored (.real .double)
  | first :: rest => rest.foldl LeafKind.common first

/-- A value as a tensor of a given storage type. An array is converted, and so
is an element that is not in a list. -/
def Value.collectAs (target : Storage) (v : Value) : Except Failure Tensor :=
  match v with
  | .array a => .ok (a.tensor.convert target)
  | .atom (.element s e) => .ok ⟨target, .point (s.convert target e)⟩
  | v => do
      let leaves ← v.leaves
      let ⟨grid, _⟩ ← leaves.tryMap (Leaf.store target)
      .ok ⟨target, grid⟩

/-- A value as a tensor of its own storage type. Values without one are
refused. -/
def Value.collect (v : Value) : Except Failure Tensor :=
  match v with
  | .array a => .ok a.tensor
  | v => do
      let _ ← v.leaves
      match v.kind with
      | .stored s => v.collectAs s
      | _ => .error .wrongKind

def Value.isComplex (v : Value) : Except Failure Bool := do
  let _ ← v.leaves
  match v.kind with
  | .stored (.complex _) => .ok true
  | _ => .ok false

/-- Whether a value holds exactly one element. -/
def Value.isSingle (v : Value) : Except Failure Bool := do
  let leaves ← v.leaves
  .ok (leaves.size == 1)

end KernelLaunch.Host
