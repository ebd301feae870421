import KernelLaunch.Geometry.Components

/-!
The dispatch geometry of a launch: thread block size, grid size and global offset in three
dimensions. The global size is the product of block and grid, so it is always a multiple of
the block size. Limits of devices are checked by the call, since the device can change
later.
-/

namespace KernelLaunch.Geometry

open Host

/-- The sizes of a launch. -/
structure Dispatch where
  /-- The threads of a block. -/
  block : Triple Int
  /-- The blocks of the grid. -/
  grid : Triple Int
  /-- The global offset. -/
  offset : Triple Int
  deriving DecidableEq, Repr

/-- The sizes that can be assigned. -/
inductive Field where
  | block
  | grid
  | offset
  | global
  deriving DecidableEq, Repr

namespace Dispatch

/-- One block of one thread at the origin. -/
def initial : Dispatch := ⟨.same 1, .same 1, .same 0⟩

/-- The global size: grid times block. -/
def global (d : Dispatch) : Triple Int := d.grid.zipWith (· * ·) d.block

def blockThreads (d : Dispatch) : Int := d.block.product

/-- The launch vectors: the global offset followed by the global size, and the block size. -/
def launchVectors (d : Dispatch) : List Int × List Int :=
  (d.offset.toList ++ d.global.toList, d.block.toList)

/-- The components of a triple without missing ones, as a message shows them. -/
private def shown (t : Triple Int) : List (Option Int) := (t.map some).toList

/-- A geometry with another block size, which may be zero but not negative. -/
def setBlock (d : Dispatch) (v : Value) : Except Failure Dispatch := do
  let block ← triple 1 v
  if block.any (· < 0) then .error (.size (.negativeBlock (shown block)))
  else return { d with block }

/-- A geometry with another grid size, which must be positive. -/
def setGrid (d : Dispatch) (v : Value) : Except Failure Dispatch := do
  let grid ← triple 1 v
  if grid.any (· ≤ 0) then .error (.size (.nonPositiveGrid (shown grid)))
  else return { d with grid }

/-- A geometry with another offset, which must not be negative. -/
def setOffset (d : Dispatch) (v : Value) : Except Failure Dispatch := do
  let offset ← triple 0 v
  if offset.any (· < 0) then .error (.size (.negativeOffset (shown offset)))
  else return { d with offset }

/-- The block size after a global size is assigned: the greatest common divisor of both, which
is the global size itself for a block size of zero. -/
def fittedBlock (block : Int) : Option Int → Int
  | some size => Int.gcd block size
  | none => block

/-- The grid of a dimension after its global size is assigned. -/
def fittedGrid (block grid : Int) : Option Int → Int
  | some size => size / Int.gcd block size
  | none => grid

/-- A geometry with another global size, which must be positive. Dimensions
that the size leaves out stay as they are. -/
def setGlobal (d : Dispatch) (v : Value) : Except Failure Dispatch := do
  let size ← partialTriple v
  if size.any (fun c => c.any (· ≤ 0)) then .error (.size (.nonPositiveGlobal size.toList))
  else return { d with
    block := d.block.zipWith fittedBlock size
    grid := (d.block.zipWith Prod.mk d.grid).zipWith (fun (b, g) => fittedGrid b g) size }

/-- A geometry with one size assigned. -/
def set (d : Dispatch) : Field → Value → Except Failure Dispatch
  | .block, v => d.setBlock v
  | .grid, v => d.setGrid v
  | .offset, v => d.setOffset v
  | .global, v => d.setGlobal v

/-- A geometry made from some sizes, the block first, then the grid, then the
offset, whichever are given. -/
def make (block grid offset : Option Value) : Except Failure Dispatch := do
  let d ← initial.setBlock (block.getD (.int 1))
  let d ← d.setGrid (grid.getD (.int 1))
  d.setOffset (offset.getD (.int 0))

def text (d : Dispatch) : String :=
  "DispatchGeometry(thread_block_size=" ++ vectorText (shown d.block) ++ ", grid_size=" ++
    vectorText (shown d.grid) ++ ", global_offset=" ++ vectorText (shown d.offset) ++ ")"

end Dispatch

end KernelLaunch.Geometry
