/-!
Grids: cells in row-major order under a shape. The number of cells is always
the product of the extents, so no operation has to check it again.
-/

namespace KernelLaunch.Host

/-- The number of cells of a shape. -/
def volume (shape : List Nat) : Nat := shape.foldr (· * ·) 1

@[simp] theorem volume_nil : volume [] = 1 := rfl

@[simp] theorem volume_cons (n : Nat) (shape : List Nat) :
    volume (n :: shape) = n * volume shape := rfl

/-- Cells arranged in a shape. -/
structure Grid (α : Type) where
  shape : List Nat
  cells : List α
  count : cells.length = volume shape
  deriving DecidableEq

namespace Grid

variable {α β : Type}

/-- The grid without dimensions. -/
def point (a : α) : Grid α := ⟨[], [a], rfl⟩

/-- The number of cells. -/
def size (g : Grid α) : Nat := volume g.shape

/-- The cells arranged in a shape, if there are as many as it needs. -/
def ofCells? (shape : List Nat) (cells : List α) : Option (Grid α) :=
  if h : cells.length = volume shape then some ⟨shape, cells, h⟩ else none

/-- A grid with each cell changed on its own. -/
def map (f : α → β) (g : Grid α) : Grid β :=
  ⟨g.shape, g.cells.map f, by simp [g.count]⟩

@[simp] theorem map_shape (f : α → β) (g : Grid α) : (g.map f).shape = g.shape := rfl

@[simp] theorem map_cells (f : α → β) (g : Grid α) : (g.map f).cells = g.cells.map f := rfl

/-- The same cells in another shape of the same volume. -/
def reshape (g : Grid α) (shape : List Nat) (h : volume shape = volume g.shape) : Grid α :=
  ⟨shape, g.cells, g.count.trans h.symm⟩

/-- The grid as a row of all its cells. -/
def flat (g : Grid α) : Grid α := ⟨[g.cells.length], g.cells, by simp⟩

/-- Each cell changed on its own, until one cannot be. -/
private def tryCells {ε : Type} (f : α → Except ε β) :
    (cells : List α) → Except ε { out : List β // out.length = cells.length }
  | [] => .ok ⟨[], rfl⟩
  | a :: rest => do
      let b ← f a
      let ⟨others, h⟩ ← tryCells f rest
      .ok ⟨b :: others, by simp [h]⟩

/-- A grid with each cell changed on its own, or the failure of the first cell
that cannot be changed. -/
def tryMap {ε : Type} (f : α → Except ε β) (g : Grid α) :
    Except ε { k : Grid β // k.shape = g.shape } := do
  let ⟨cells, h⟩ ← tryCells f g.cells
  .ok ⟨⟨g.shape, cells, h.trans g.count⟩, rfl⟩

private theorem tryCells_error {ε : Type} {f : α → Except ε β} {cells : List α} {e : ε}
    (h : tryCells f cells = .error e) : ∃ a ∈ cells, f a = .error e := by
  induction cells with
  | nil => cases h
  | cons a rest ih =>
      rw [tryCells] at h
      cases hfirst : f a with
      | error _ =>
          rw [hfirst] at h
          cases h
          exact ⟨a, List.mem_cons_self, hfirst⟩
      | ok b =>
          rw [hfirst] at h
          cases hrest : tryCells f rest with
          | error _ =>
              rw [hrest] at h
              cases h
              obtain ⟨a', ha', hfails⟩ := ih hrest
              exact ⟨a', List.mem_cons_of_mem a ha', hfails⟩
          | ok others =>
              rw [hrest] at h
              cases h

/-- If cells cannot be changed, it is for the reason of one of them. -/
theorem tryMap_error {ε : Type} {f : α → Except ε β} {g : Grid α} {e : ε}
    (h : g.tryMap f = .error e) : ∃ a ∈ g.cells, f a = .error e := by
  apply tryCells_error
  unfold tryMap at h
  cases hcells : tryCells f g.cells with
  | error _ =>
      rw [hcells] at h
      cases h
      rfl
  | ok cells =>
      rw [hcells] at h
      cases h

private theorem tryCells_ok {ε : Type} {f : α → Except ε β} {cells : List α}
    {out : { out : List β // out.length = cells.length }} (h : tryCells f cells = .ok out) :
    cells.mapM f = .ok out.1 := by
  induction cells with
  | nil =>
      cases h
      rfl
  | cons a rest ih =>
      rw [tryCells] at h
      rw [List.mapM_cons]
      cases hfirst : f a with
      | error _ =>
          rw [hfirst] at h
          cases h
      | ok b =>
          rw [hfirst] at h
          cases hrest : tryCells f rest with
          | error _ =>
              rw [hrest] at h
              cases h
          | ok others =>
              rw [hrest] at h
              cases h
              rw [ih hrest]
              rfl

/-- Cells that can be changed are changed one by one. -/
theorem tryMap_ok {ε : Type} {f : α → Except ε β} {g : Grid α} {k : { k : Grid β // k.shape = g.shape }}
    (h : g.tryMap f = .ok k) : g.cells.mapM f = .ok k.1.cells := by
  unfold tryMap at h
  cases hcells : tryCells f g.cells with
  | error _ =>
      rw [hcells] at h
      cases h
  | ok cells =>
      rw [hcells] at h
      cases h
      exact tryCells_ok hcells

private theorem length_flatten (n : Nat) (gs : List (Grid α))
    (h : ∀ g ∈ gs, volume g.shape = n) :
    ((gs.map (·.cells)).flatten).length = gs.length * n := by
  induction gs with
  | nil => simp
  | cons g rest ih =>
      have hrest := ih fun x hx => h x (List.mem_cons_of_mem _ hx)
      have hfirst := g.count.trans (h g List.mem_cons_self)
      simp only [List.map_cons, List.flatten_cons, List.length_append, hfirst, hrest,
        List.length_cons, Nat.add_mul, Nat.one_mul]
      omega

/-- Grids of one shape as the rows of a new grid; `none` if their shapes
differ. Without grids the result has no rows and no further dimension. -/
def stack? : List (Grid α) → Option (Grid α)
  | [] => some ⟨[0], [], rfl⟩
  | g :: rest =>
      if h : ∀ other ∈ rest, other.shape = g.shape then
        some ⟨(rest.length + 1) :: g.shape, (((g :: rest)).map (·.cells)).flatten, by
          have hall : ∀ x ∈ g :: rest, volume x.shape = volume g.shape := by
            intro x hx
            rcases List.mem_cons.1 hx with rfl | hx
            · rfl
            · rw [h x hx]
          simpa using length_flatten (volume g.shape) (g :: rest) hall⟩
      else none

/-- The cells of one row. -/
private theorem row_count {n v i : Nat} {cells : List α} (h : cells.length = n * v) (hi : i < n) :
    ((cells.drop (i * v)).take v).length = v := by
  have : (i + 1) * v ≤ n * v := Nat.mul_le_mul_right v hi
  rw [Nat.add_mul, Nat.one_mul] at this
  simp only [List.length_take, List.length_drop, h]
  omega

/-- One row of a grid with at least one dimension. -/
def row (g : Grid α) {n : Nat} {shape : List Nat} (h : g.shape = n :: shape) (i : Fin n) :
    Grid α :=
  ⟨shape, (g.cells.drop (i * volume shape)).take (volume shape),
    row_count (by rw [g.count, h, volume_cons]) i.isLt⟩

/-- The rows of a grid; `none` without dimensions. -/
def rows? (g : Grid α) : Option (List (Grid α)) :=
  match h : g.shape with
  | [] => none
  | n :: _ => some ((List.finRange n).map fun i => g.row h i)

/-- Two grids of one shape, cell by cell. -/
def zipWith {γ : Type} (f : α → β → γ) (g : Grid α) (k : Grid β) (h : g.shape = k.shape) :
    Grid γ :=
  ⟨g.shape, List.zipWith f g.cells k.cells, by
    rw [List.length_zipWith, g.count, k.count, h, Nat.min_self]⟩

/-- Two images of a grid, one after the other, under a new first dimension. -/
def pair (f k : α → β) (g : Grid α) : Grid β :=
  ⟨2 :: g.shape, g.cells.map f ++ g.cells.map k, by
    simp only [List.length_append, List.length_map, g.count, volume_cons]; omega⟩

end Grid

end KernelLaunch.Host
