import KernelLaunch.Host.Collect

/-!
Complex numbers as pairs of real ones. A kernel sees a complex tensor as a real
one with a new first dimension of extent two: the real parts, then the
imaginary parts.
-/

namespace KernelLaunch.Host

open Number

/-- The storage type of the parts of an element. A real element is its own real
part. -/
def Storage.part : Storage → Storage
  | complex parts => real parts.precision
  | s => s

/-- The real part of an element, as it is stored. -/
def Storage.first : (s : Storage) → s.Elem → s.part.Elem
  | truth, b => b
  | integer _ _, n => n
  | real _, x => x
  | complex _, z => z.1

/-- The imaginary part of an element, as it is stored. -/
def Storage.second : (s : Storage) → s.Elem → s.part.Elem
  | truth, _ => false
  | integer _ width, _ => BitVec.ofNat width.bits 0
  | real p, _ => Binary.ofInt p 0
  | complex _, z => z.2

/-- The complex storage type of pairs of numbers. Types other than real ones
need double precision. -/
def Storage.paired : Storage → Parts
  | real .double => .double
  | real _ => .single
  | _ => .double

/-- The real and the imaginary parts of a tensor, under a new first dimension
of extent two. -/
def Tensor.split (t : Tensor) : Tensor :=
  ⟨t.storage.part, t.grid.pair t.storage.first t.storage.second⟩

/-- A tensor whose first row holds the real and whose second row holds the
imaginary parts, as a complex one. Further rows are not looked at. -/
def Tensor.join (t : Tensor) : Except Failure Tensor :=
  match h : t.grid.shape with
  | [] => .error .badPosition
  | n :: _ =>
      if hn : 2 ≤ n then
        let parts := t.storage.paired
        let join (a b : t.storage.Elem) : (Storage.complex parts).Elem :=
          (t.storage.realPart parts.precision a, t.storage.realPart parts.precision b)
        .ok ⟨.complex parts,
          (t.grid.row h ⟨0, Nat.lt_of_succ_lt hn⟩).zipWith join (t.grid.row h ⟨1, hn⟩) rfl⟩
      else .error .badPosition

/-- The real tensor of a value. There has to be room for its new dimension. -/
def Value.split (v : Value) : Except Failure Tensor := do
  let t ← v.collect
  if maxDimensions ≤ t.shape.length then .error .badPosition else .ok t.split

/-- A leaf kept as a text, read as a number. -/
def Leaf.textPart (l : Leaf) : Except Failure (Binary .double) := realOfText l.atom.plain

/-- A leaf kept as an object, read as a number. A complex one has to be the
only one of its row, and counts with its real part. -/
def Leaf.objectPart (isOnly : Bool) : Leaf → Except Failure (Binary .double)
  | .alone (.element s e) => .ok (s.realPart .double e)
  | .alone (.text s) => realOfText s
  | .alone (.complex re _) => if isOnly then .ok re else .error .wrongKind
  | .alone a => (a.store (.real .double) : Except Failure (Binary .double))
  | .cell (.complex parts) z =>
      if isOnly then .ok ((Storage.complex parts).realPart .double z) else .error .wrongKind
  | .cell s e => .ok (s.realPart .double e)

/-- The complex tensor of leaves without a storage type: each is read as a
number of double precision, the first row before the second. -/
def joinLeaves (g : Grid Leaf) (read : Leaf → Except Failure (Binary .double)) :
    Except Failure Tensor :=
  match h : g.shape with
  | [] => .error .badPosition
  | n :: _ =>
      if first : 0 < n then do
        let ⟨re, hre⟩ ← (g.row h ⟨0, first⟩).tryMap read
        if second : 1 < n then
          let ⟨im, him⟩ ← (g.row h ⟨1, second⟩).tryMap read
          .ok ⟨.complex .double, re.zipWith Prod.mk im (hre.trans him.symm)⟩
        else .error .badPosition
      else .error .badPosition

def Value.join (v : Value) : Except Failure Tensor := do
  let leaves ← v.leaves
  match v.kind with
  | .stored _ => (← v.collect).join
  | .texts => joinLeaves leaves Leaf.textPart
  | .objects => joinLeaves leaves (Leaf.objectPart (leaves.shape.length == 1))

end KernelLaunch.Host
