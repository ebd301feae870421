import KernelLaunch.Geometry.Dispatch
import KernelLaunch.Proofs.Except

/-!
Block and grid sizes under assignment, dimension by dimension. Grid sizes stay positive and
nothing is ever negative, but a block size of zero is accepted. The main statement says when
a block size is zero: its last assignment was a zero block size, with no global size after
it.
-/

namespace KernelLaunch.Geometry

open Host

/-- A dimension of a launch. -/
inductive Axis where
  | x
  | y
  | z
  deriving DecidableEq, Repr

namespace Triple

variable {α β γ : Type}

/-- The component of a dimension. -/
def along (t : Triple α) : Axis → α
  | .x => t.x
  | .y => t.y
  | .z => t.z

@[simp] theorem along_zipWith (f : α → β → γ) (t : Triple α) (u : Triple β) (i : Axis) :
    (t.zipWith f u).along i = f (t.along i) (u.along i) := by cases i <;> rfl

theorem any_eq_false_iff {p : α → Bool} {t : Triple α} :
    t.any p = false ↔ ∀ i, p (t.along i) = false := by
  simp only [any, Bool.or_eq_false_iff]
  constructor
  · rintro ⟨⟨hx, hy⟩, hz⟩ i
    cases i with
    | x => exact hx
    | y => exact hy
    | z => exact hz
  · intro h
    exact ⟨⟨h .x, h .y⟩, h .z⟩

end Triple

namespace Dispatch

/-- The geometry after a global size has been assigned. -/
def fitted (d : Dispatch) (size : Triple (Option Int)) : Dispatch :=
  { d with
    block := d.block.zipWith fittedBlock size
    grid := (d.block.zipWith Prod.mk d.grid).zipWith (fun (b, g) => fittedGrid b g) size }

/-- The effect of an accepted assignment. -/
inductive Assigns (d : Dispatch) (v : Value) : Field → Dispatch → Prop where
  | block {block : Triple Int} (given : triple 1 v = .ok block)
      (admitted : ∀ i, 0 ≤ block.along i) : Assigns d v .block { d with block }
  | grid {grid : Triple Int} (given : triple 1 v = .ok grid)
      (admitted : ∀ i, 0 < grid.along i) : Assigns d v .grid { d with grid }
  | offset {offset : Triple Int} (given : triple 0 v = .ok offset)
      (admitted : ∀ i, 0 ≤ offset.along i) : Assigns d v .offset { d with offset }
  | global {size : Triple (Option Int)} (given : partialTriple v = .ok size)
      (admitted : ∀ i n, size.along i = some n → 0 < n) : Assigns d v .global (d.fitted size)

theorem assigns_of_set {d d' : Dispatch} {f : Field} {v : Value} (h : d.set f v = .ok d') :
    Assigns d v f d' := by
  cases f with
  | block =>
      obtain ⟨block, hgiven, h⟩ := Steps.bind_ok_iff.mp h
      split at h
      · cases h
      · next hany =>
        cases h
        refine .block hgiven fun i => ?_
        have hi := Triple.any_eq_false_iff.mp (Bool.eq_false_iff.mpr hany) i
        simpa using hi
  | grid =>
      obtain ⟨grid, hgiven, h⟩ := Steps.bind_ok_iff.mp h
      split at h
      · cases h
      · next hany =>
        cases h
        refine .grid hgiven fun i => ?_
        have hi := Triple.any_eq_false_iff.mp (Bool.eq_false_iff.mpr hany) i
        simpa using hi
  | offset =>
      obtain ⟨offset, hgiven, h⟩ := Steps.bind_ok_iff.mp h
      split at h
      · cases h
      · next hany =>
        cases h
        refine .offset hgiven fun i => ?_
        have hi := Triple.any_eq_false_iff.mp (Bool.eq_false_iff.mpr hany) i
        simpa using hi
  | global =>
      obtain ⟨size, hgiven, h⟩ := Steps.bind_ok_iff.mp h
      split at h
      · cases h
      · next hany =>
        cases h
        refine .global hgiven fun i n hn => ?_
        have hi := Triple.any_eq_false_iff.mp (Bool.eq_false_iff.mpr hany) i
        simpa [hn] using hi

theorem along_fitted_block (d : Dispatch) (size : Triple (Option Int)) (i : Axis) :
    (d.fitted size).block.along i = fittedBlock (d.block.along i) (size.along i) :=
  Triple.along_zipWith ..

theorem along_fitted_grid (d : Dispatch) (size : Triple (Option Int)) (i : Axis) :
    (d.fitted size).grid.along i =
      fittedGrid (d.block.along i) (d.grid.along i) (size.along i) := by
  simp [fitted]

/-- A positive size has a positive divisor in common with any block size. -/
theorem fittedBlock_pos (block : Int) {n : Int} (hn : 0 < n) : 0 < fittedBlock block (some n) := by
  have hgcd : 0 < Int.gcd block n := Int.gcd_pos_of_ne_zero_right block (Int.ne_of_gt hn)
  exact Int.natCast_pos.mpr hgcd

theorem fittedGrid_pos (block grid : Int) {n : Int} (hn : 0 < n) :
    0 < fittedGrid block grid (some n) := by
  have hblock : 0 < (Int.gcd block n : Int) := fittedBlock_pos block hn
  exact Int.ediv_pos_of_pos_of_dvd hn (Int.le_of_lt hblock) (Int.gcd_dvd_right ..)

/-- The sizes that a geometry can have. -/
structure Admissible (d : Dispatch) : Prop where
  block : ∀ i, 0 ≤ d.block.along i
  grid : ∀ i, 0 < d.grid.along i
  offset : ∀ i, 0 ≤ d.offset.along i

theorem initial_admissible : initial.Admissible := by
  constructor <;> intro i <;> cases i <;> decide

theorem Admissible.set {d d' : Dispatch} (h : d.Admissible) {f : Field} {v : Value}
    (hset : d.set f v = .ok d') : d'.Admissible := by
  obtain ⟨hblock, hgrid, hoffset⟩ := h
  cases assigns_of_set hset with
  | block _ admitted => exact ⟨admitted, hgrid, hoffset⟩
  | grid _ admitted => exact ⟨hblock, admitted, hoffset⟩
  | offset _ admitted => exact ⟨hblock, hgrid, admitted⟩
  | @global size _ admitted =>
      refine ⟨fun i => ?_, fun i => ?_, hoffset⟩
      · rw [along_fitted_block]
        cases hi : size.along i with
        | none => exact hblock i
        | some n => exact Int.le_of_lt (fittedBlock_pos _ (admitted i n hi))
      · rw [along_fitted_grid]
        cases hi : size.along i with
        | none => exact hgrid i
        | some n => exact fittedGrid_pos _ _ (admitted i n hi)

/-- Several sizes assigned in order, all of which have to be accepted. -/
def setAll (d : Dispatch) (sizes : List (Field × Value)) : Except Failure Dispatch :=
  sizes.foldlM (fun d (f, v) => d.set f v) d

theorem setAll_cons (d : Dispatch) (f : Field) (v : Value) (rest : List (Field × Value)) :
    d.setAll ((f, v) :: rest) = d.set f v >>= (·.setAll rest) := List.foldlM_cons

theorem setAll_append {d d' d'' : Dispatch} {sizes rest : List (Field × Value)}
    (h : d.setAll sizes = .ok d') (h' : d'.setAll rest = .ok d'') :
    d.setAll (sizes ++ rest) = .ok d'' := by
  unfold setAll
  rw [List.foldlM_append]
  exact Steps.bind_ok_iff.mpr ⟨d', h, h'⟩

theorem Admissible.setAll {d d' : Dispatch} (h : d.Admissible) {sizes : List (Field × Value)}
    (hset : d.setAll sizes = .ok d') : d'.Admissible := by
  induction sizes generalizing d with
  | nil =>
      cases hset
      exact h
  | cons size rest ih =>
      obtain ⟨f, v⟩ := size
      rw [setAll_cons] at hset
      obtain ⟨next, hnext, hrest⟩ := Steps.bind_ok_iff.mp hset
      exact ih (h.set hnext) hrest

/-- Whether an assigned size makes the block size of a dimension zero, if it
concerns it at all. -/
def empties? (i : Axis) : Field × Value → Option Bool
  | (.block, v) => (triple 1 v).toOption.map fun block => block.along i == 0
  | (.global, v) => (partialTriple v).toOption.bind fun size => (size.along i).map fun _ => false
  | (.grid, _) | (.offset, _) => none

/-- The last of some assigned sizes that concerns the block size of a dimension
made it zero. -/
def Emptied (i : Axis) (sizes : List (Field × Value)) : Prop :=
  sizes.reverse.findSome? (empties? i) = some true

theorem set_block {d d' : Dispatch} {f : Field} {v : Value} (h : d.set f v = .ok d') (i : Axis) :
    (d'.block.along i == 0) = (empties? i (f, v)).getD (d.block.along i == 0) := by
  cases assigns_of_set h with
  | block given => simp [empties?, given, Except.toOption]
  | grid => rfl
  | offset => rfl
  | @global size given admitted =>
      rw [along_fitted_block]
      cases hi : size.along i with
      | none => simp [empties?, given, Except.toOption, hi, fittedBlock]
      | some n =>
          have hpos := fittedBlock_pos (d.block.along i) (admitted i n hi)
          simp [empties?, given, Except.toOption, hi, Int.ne_of_gt hpos]

theorem setAll_block {d d' : Dispatch} {sizes : List (Field × Value)}
    (h : d.setAll sizes = .ok d') (i : Axis) :
    (d'.block.along i == 0) =
      (sizes.reverse.findSome? (empties? i)).getD (d.block.along i == 0) := by
  induction sizes generalizing d with
  | nil =>
      cases h
      rfl
  | cons size rest ih =>
      obtain ⟨f, v⟩ := size
      rw [setAll_cons] at h
      obtain ⟨next, hnext, hrest⟩ := Steps.bind_ok_iff.mp h
      rw [ih hrest, set_block hnext, List.reverse_cons, List.findSome?_append,
        List.findSome?_singleton]
      cases rest.reverse.findSome? (empties? i) <;> rfl

/-- From positive block sizes on, one is zero if and only if it has been made zero
last. -/
theorem setAll_block_eq_zero_iff {d d' : Dispatch} {sizes : List (Field × Value)}
    (h : d.setAll sizes = .ok d') {i : Axis} (hpos : d.block.along i ≠ 0) :
    d'.block.along i = 0 ↔ Emptied i sizes := by
  have hblock := setAll_block h i
  rw [beq_eq_false_iff_ne.mpr hpos] at hblock
  rw [← beq_iff_eq, hblock, Emptied]
  cases sizes.reverse.findSome? (empties? i) <;> simp

end Dispatch

end KernelLaunch.Geometry
