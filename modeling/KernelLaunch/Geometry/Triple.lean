/-!
Three components, one for each dimension of a launch.
-/

namespace KernelLaunch.Geometry

/-- A component for each of the three dimensions. -/
structure Triple (α : Type) where
  x : α
  y : α
  z : α
  deriving DecidableEq, Repr

namespace Triple

variable {α β γ : Type}

/-- The same component in each dimension. -/
def same (a : α) : Triple α := ⟨a, a, a⟩

/-- Each component changed on its own. -/
def map (f : α → β) (t : Triple α) : Triple β := ⟨f t.x, f t.y, f t.z⟩

/-- Two triples, dimension by dimension. -/
def zipWith (f : α → β → γ) (t : Triple α) (u : Triple β) : Triple γ :=
  ⟨f t.x u.x, f t.y u.y, f t.z u.z⟩

/-- The components in order. -/
def toList (t : Triple α) : List α := [t.x, t.y, t.z]

/-- Whether some component has a property. -/
def any (p : α → Bool) (t : Triple α) : Bool := p t.x || p t.y || p t.z

/-- The first three items of a list; `missing` stands for those it lacks. -/
def ofList (missing : α) (items : List α) : Triple α :=
  ⟨items.getD 0 missing, items.getD 1 missing, items.getD 2 missing⟩

def product (t : Triple Int) : Int := t.x * t.y * t.z

end Triple

end KernelLaunch.Geometry
