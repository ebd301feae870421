import KernelLaunch.Host.Grid

/-!
Broadcasting: two grids of different shapes paired cell by cell. Shapes are
aligned at their last extents, a missing extent counts as one, and an extent of
one is repeated as often as the other grid needs it.
-/

namespace KernelLaunch.Host

/-- The extents of two shapes, last ones first, after repetition. -/
def commonExtents? : List Nat → List Nat → Option (List Nat)
  | [], extents | extents, [] => some extents
  | m :: ms, n :: ns => do
      let rest ← commonExtents? ms ns
      if m = n ∨ n = 1 then some (m :: rest)
      else if m = 1 then some (n :: rest)
      else none

/-- The shape in which grids of two shapes are paired. -/
def commonShape? (s t : List Nat) : Option (List Nat) :=
  (commonExtents? s.reverse t.reverse).map List.reverse

/-- Whether each extent of a shape equals that of another one or is one. -/
def Stretches : List Nat → List Nat → Prop
  | [], [] => True
  | m :: ms, n :: ns => (m = n ∨ m = 1) ∧ Stretches ms ns
  | _, _ => False

instance instDecidableStretches : (s t : List Nat) → Decidable (Stretches s t)
  | [], [] => .isTrue trivial
  | _ :: ms, _ :: ns =>
      have := instDecidableStretches ms ns
      inferInstanceAs (Decidable (_ ∧ _))
  | [], _ :: _ | _ :: _, [] => .isFalse id

/-- A shape with extents of one in front, up to a number of extents. -/
def padShape (extents : Nat) (shape : List Nat) : List Nat :=
  List.replicate (extents - shape.length) 1 ++ shape

/-- Padding leaves the volume as it is. -/
theorem volume_padShape (extents : Nat) (shape : List Nat) :
    volume (padShape extents shape) = volume shape := by
  rw [padShape]
  induction extents - shape.length with
  | zero => rfl
  | succ k ih => simp [List.replicate_succ, ih]

/-- The cells of a grid repeated for a shape that its own stretches to. -/
def stretchCells {α : Type} : (source target : List Nat) → List α → List α
  | m :: ms, n :: ns, cells =>
      if m = n then
        ((List.range n).map fun i =>
          stretchCells ms ns ((cells.drop (i * volume ms)).take (volume ms))).flatten
      else (List.replicate n (stretchCells ms ns cells)).flatten
  | _, _, cells => cells

/-- Stretched cells fill the shape that they are stretched to. -/
theorem length_stretchCells {α : Type} (source target : List Nat) (cells : List α)
    (fits : Stretches source target) (count : cells.length = volume source) :
    (stretchCells source target cells).length = volume target := by
  induction source generalizing target cells with
  | nil =>
      cases target with
      | nil => exact count
      | cons n ns => exact fits.elim
  | cons m ms ih =>
      cases target with
      | nil => exact fits.elim
      | cons n ns =>
          obtain ⟨extent, rest⟩ := fits
          rw [stretchCells]
          split
          · next same =>
            subst same
            have rows : ∀ i ∈ List.range m, (stretchCells ms ns
                ((cells.drop (i * volume ms)).take (volume ms))).length = volume ns := by
              intro i hi
              have bound : (i + 1) * volume ms ≤ m * volume ms :=
                Nat.mul_le_mul_right _ (List.mem_range.1 hi)
              rw [Nat.add_mul, Nat.one_mul] at bound
              apply ih _ _ rest
              rw [List.length_take, List.length_drop, count, volume_cons]
              omega
            have lengths : (List.range m).map (List.length ∘ fun i => stretchCells ms ns
                ((cells.drop (i * volume ms)).take (volume ms))) =
                (List.range m).map fun _ => volume ns := List.map_congr_left rows
            rw [List.length_flatten, List.map_map, lengths, List.map_const', List.length_range,
              List.sum_replicate_nat, volume_cons]
          · next other =>
            have one : m = 1 := extent.resolve_left other
            have row := ih ns cells rest (by rw [count, volume_cons, one, Nat.one_mul])
            simp [List.length_flatten, row]

/-- A grid repeated so that it has another shape, if its own stretches to it. -/
def Grid.stretch? {α : Type} (g : Grid α) (shape : List Nat) :
    Option { k : Grid α // k.shape = shape } :=
  let source := padShape shape.length g.shape
  if fits : Stretches source shape then
    some ⟨⟨shape, stretchCells source shape g.cells,
      length_stretchCells source shape g.cells fits
        (g.count.trans (volume_padShape _ _).symm)⟩, rfl⟩
  else none

/-- Two grids paired cell by cell after broadcasting; `none` if their shapes do
not fit together. -/
def Grid.broadcast? {α β γ : Type} (f : α → β → γ) (g : Grid α) (k : Grid β) :
    Option (Grid γ) := do
  let shape ← commonShape? g.shape k.shape
  let ⟨left, hleft⟩ ← g.stretch? shape
  let ⟨right, hright⟩ ← k.stretch? shape
  some (left.zipWith f right (hleft.trans hright.symm))

end KernelLaunch.Host
