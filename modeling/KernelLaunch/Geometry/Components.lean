import KernelLaunch.Host.Component
import KernelLaunch.Geometry.Triple

/-!
Work sizes as callers write them: one integer, or up to as many as there are
dimensions. What counts as an integer is any value equal to one.
-/

namespace KernelLaunch.Geometry

open Host

/-- The items that a work size is made of. -/
def sizeItems (v : Value) : Except Failure (List Value) :=
  if v.isSequence then v.items else .ok [v]

/-- The integers of a work size, at most `limit` of them. -/
def components (limit : Int) (v : Value) : Except Failure (List Int) := do
  let items ← sizeItems v
  if limit < items.length then .error (.size (.tooManyComponents limit items.length))
  else items.mapM Value.component

/-- The integers of a work size, with `missing` for each one that it lacks. -/
def padded (limit : Int) (missing : Value) (v : Value) : Except Failure (List Value) := do
  let given ← components limit v
  .ok (given.map Value.int ++ List.replicate (limit - given.length).toNat missing)

/-- A work size with a component in each dimension. -/
def triple (missing : Int) (v : Value) : Except Failure (Triple Int) := do
  .ok (.ofList missing (← components 3 v))

/-- A work size that may leave out its last dimensions. -/
def partialTriple (v : Value) : Except Failure (Triple (Option Int)) := do
  .ok (.ofList none ((← components 3 v).map some))

end KernelLaunch.Geometry
