import Mathlib.Algebra.GCDMonoid.Multiset
import Mathlib.Algebra.GCDMonoid.Nat
import Mathlib.Order.Bounds.Defs
import KernelLaunch.Proofs.Geometry.Reachable

/-!
Sequences of global sizes. Each assignment reduces the block size to its greatest common
divisor with the new global size, so the block ends up as the divisor common to all of them
while the last global size is met exactly. The main statement covers every reachable
geometry, and says that assigning the present global size changes nothing.
-/

namespace KernelLaunch.Geometry

open Host

namespace Triple

variable {α β : Type}

@[simp] theorem along_map (f : α → β) (t : Triple α) (i : Axis) :
    (t.map f).along i = f (t.along i) := by cases i <;> rfl

theorem eq_of_along {t u : Triple α} (h : ∀ i, t.along i = u.along i) : t = u := by
  obtain ⟨tx, ty, tz⟩ := t
  obtain ⟨ux, uy, uz⟩ := u
  have hx : tx = ux := h .x
  have hy : ty = uy := h .y
  have hz : tz = uz := h .z
  rw [hx, hy, hz]

end Triple

namespace Dispatch

/-- The global size that a value assigns to a dimension, unless it leaves it out. -/
def assignedSize (i : Axis) (v : Value) : Option Int :=
  (partialTriple v).toOption.bind (·.along i)

/-- The global sizes that some values assign to a dimension, in order. -/
def assignedSizes (i : Axis) (vs : List Value) : List Int := vs.filterMap (assignedSize i)

/-- Several global sizes assigned in order, all of which have to be accepted. -/
def setGlobals (d : Dispatch) (vs : List Value) : Except Failure Dispatch :=
  d.setAll (vs.map (Field.global, ·))

theorem setGlobals_cons (d : Dispatch) (v : Value) (vs : List Value) :
    d.setGlobals (v :: vs) = d.set .global v >>= (·.setGlobals vs) := setAll_cons ..

section Step

variable {d after : Dispatch} {v : Value} {i : Axis}

/-- What one global size makes of the block and the grid of each dimension. -/
theorem along_of_setGlobal (h : d.set .global v = .ok after) (i : Axis) :
    after.block.along i = fittedBlock (d.block.along i) (assignedSize i v) ∧
      after.grid.along i =
        fittedGrid (d.block.along i) (d.grid.along i) (assignedSize i v) ∧
      ∀ n, assignedSize i v = some n → 0 < n := by
  cases assigns_of_set h with
  | @global size given admitted =>
      have hsize : assignedSize i v = size.along i := by
        simp [assignedSize, given, Except.toOption]
      rw [hsize]
      exact ⟨along_fitted_block d size i, along_fitted_grid d size i, admitted i⟩

theorem along_global (d : Dispatch) (i : Axis) :
    d.global.along i = d.grid.along i * d.block.along i := Triple.along_zipWith ..

/-- A fitted block divides the size, so the grid covers the size exactly. -/
theorem fittedGrid_mul_fittedBlock (block grid n : Int) :
    fittedGrid block grid (some n) * fittedBlock block (some n) = n :=
  Int.ediv_mul_cancel (Int.gcd_dvd_right ..)

theorem global_of_assigned (h : d.set .global v = .ok after) {n : Int}
    (hn : assignedSize i v = some n) : after.global.along i = n := by
  obtain ⟨hblock, hgrid, _⟩ := along_of_setGlobal h i
  rw [hn] at hblock hgrid
  rw [along_global, hblock, hgrid]
  exact fittedGrid_mul_fittedBlock ..

theorem untouched_of_unassigned (h : d.set .global v = .ok after)
    (hnone : assignedSize i v = none) :
    after.block.along i = d.block.along i ∧ after.grid.along i = d.grid.along i := by
  obtain ⟨hblock, hgrid, _⟩ := along_of_setGlobal h i
  rw [hnone] at hblock hgrid
  exact ⟨hblock, hgrid⟩

/-- A block is reduced as little as it takes. -/
theorem isGreatest_fittedBlock (block : Int) {n : Int} (hn : 0 < n) :
    IsGreatest {k : Int | k ∣ n ∧ k ∣ block} (fittedBlock block (some n)) := by
  constructor
  · exact ⟨Int.gcd_dvd_right .., Int.gcd_dvd_left ..⟩
  · rintro k ⟨hsize, hblock⟩
    have hcommon : k ∣ fittedBlock block (some n) := Int.dvd_coe_gcd hblock hsize
    exact Int.le_of_dvd (fittedBlock_pos block hn) hcommon

theorem fittedBlock_zero {n : Int} (hn : 0 < n) : fittedBlock 0 (some n) = n := by
  have habs : (n.natAbs : Int) = n := Int.natAbs_of_nonneg (Int.le_of_lt hn)
  simpa [fittedBlock] using habs

/-- A size that the blocks of a dimension cover already leaves the dimension as it is. -/
theorem fitted_covered {block grid n : Int} (hblock : 0 ≤ block) (hn : 0 < n)
    (hcovered : n = grid * block) :
    fittedBlock block (some n) = block ∧ fittedGrid block grid (some n) = grid := by
  have hne : block ≠ 0 := by
    rintro rfl
    simp [hcovered] at hn
  have hdvd : block ∣ n := ⟨grid, by rw [hcovered, Int.mul_comm]⟩
  have hgcd : (Int.gcd block n : Int) = block := Int.gcd_eq_left hblock hdvd
  refine ⟨hgcd, ?_⟩
  calc fittedGrid block grid (some n)
      = n / Int.gcd block n := rfl
    _ = grid * block / block := by rw [hgcd, hcovered]
    _ = grid := Int.mul_ediv_cancel grid hne

/-- A global size is accepted if it is positive in each dimension that it assigns. -/
theorem setGlobal_eq {size : Triple (Option Int)} (hgiven : partialTriple v = .ok size)
    (hpos : ∀ i n, size.along i = some n → 0 < n) : d.set .global v = .ok (d.fitted size) := by
  have hadmitted : size.any (fun c => c.any (· ≤ 0)) = false := by
    apply Triple.any_eq_false_iff.mpr
    intro i
    cases hi : size.along i with
    | none => rfl
    | some n => simpa using hpos i n hi
  simp only [set, setGlobal, hgiven, bind, Except.bind, hadmitted]
  rfl

/-- A global size that is there already is accepted and changes nothing. -/
theorem setGlobal_covered {size : Triple (Option Int)} (hgiven : partialTriple v = .ok size)
    (hblock : ∀ i, 0 ≤ d.block.along i)
    (hcovered : ∀ i n, size.along i = some n → 0 < n ∧ n = d.global.along i) :
    d.set .global v = .ok d := by
  have hfitted (i : Axis) :
      fittedBlock (d.block.along i) (size.along i) = d.block.along i ∧
        fittedGrid (d.block.along i) (d.grid.along i) (size.along i) = d.grid.along i := by
    cases hi : size.along i with
    | none => exact ⟨rfl, rfl⟩
    | some n =>
        obtain ⟨hn, hglobal⟩ := hcovered i n hi
        rw [along_global] at hglobal
        exact fitted_covered (hblock i) hn hglobal
  have hsame : d.fitted size = d := by
    have hb : (d.fitted size).block = d.block := by
      apply Triple.eq_of_along
      intro i
      rw [along_fitted_block]
      exact (hfitted i).1
    have hg : (d.fitted size).grid = d.grid := by
      apply Triple.eq_of_along
      intro i
      rw [along_fitted_grid]
      exact (hfitted i).2
    calc d.fitted size
        = ⟨(d.fitted size).block, (d.fitted size).grid, d.offset⟩ := rfl
      _ = d := by rw [hb, hg]
  rw [setGlobal_eq hgiven fun i n hi => (hcovered i n hi).1, hsame]

theorem partialTriple_written (t : Triple Int) :
    partialTriple (written t) = .ok (t.map some) := by
  simp [partialTriple, components, written, sizeItems, Value.isSequence, Value.items,
    Value.items?, Triple.toList, Triple.map, Value.component, Value.integerPart, Triple.ofList,
    bind, Except.bind, pure, Except.pure]

end Step

/-- A geometry after a sequence of global sizes, each of which may leave out the last
dimensions. -/
structure Accumulates (d : Dispatch) (vs : List Value) (after : Dispatch) : Prop where
  block : ∀ i, after.block.along i =
    Multiset.gcd (d.block.along i ::ₘ (assignedSizes i vs : Multiset Int))
  global : ∀ i n, (assignedSizes i vs).getLast? = some n → after.global.along i = n
  unassigned : ∀ i, assignedSizes i vs = [] →
    after.block.along i = d.block.along i ∧ after.grid.along i = d.grid.along i
  offset : after.offset = d.offset

theorem accumulates_nil {d : Dispatch} (hd : d.Admissible) : d.Accumulates [] d where
  block i := by
    have hnormal : normalize (d.block.along i) = d.block.along i :=
      Int.normalize_of_nonneg (hd.block i)
    change d.block.along i = Multiset.gcd {d.block.along i}
    rw [Multiset.gcd_singleton, hnormal]
  global i n h := by cases h
  unassigned i _ := ⟨rfl, rfl⟩
  offset := rfl

theorem assignedSizes_cons (i : Axis) (v : Value) (vs : List Value) :
    assignedSizes i (v :: vs) = (assignedSize i v).toList ++ assignedSizes i vs := by
  unfold assignedSizes
  cases hi : assignedSize i v with
  | none => rw [List.filterMap_cons_none hi]; rfl
  | some n => rw [List.filterMap_cons_some hi]; rfl

/-- One more global size before the others. -/
theorem Accumulates.cons {d next after : Dispatch} {v : Value} {vs : List Value}
    (hset : d.set .global v = .ok next) (h : next.Accumulates vs after) :
    d.Accumulates (v :: vs) after where
  block i := by
    obtain ⟨hblock, _, _⟩ := along_of_setGlobal hset i
    rw [h.block i, hblock, assignedSizes_cons]
    cases assignedSize i v with
    | none => rfl
    | some n =>
        have hfitted : fittedBlock (d.block.along i) (some n) = gcd (d.block.along i) n :=
          Int.coe_gcd ..
        have hsizes : ((some n).toList ++ assignedSizes i vs : Multiset Int) =
            n ::ₘ (assignedSizes i vs : Multiset Int) := rfl
        rw [hfitted, hsizes]
        simp only [Multiset.gcd_cons, gcd_assoc]
  global i n hn := by
    rw [assignedSizes_cons, List.getLast?_append] at hn
    cases hlast : (assignedSizes i vs).getLast? with
    | some m =>
        rw [hlast] at hn
        exact h.global i n (hlast.trans hn)
    | none =>
        -- The size is the last one of its dimension, and those after it leave it as it is.
        have hrest : assignedSizes i vs = [] := List.getLast?_eq_none_iff.mp hlast
        obtain ⟨hblock, hgrid⟩ := h.unassigned i hrest
        have hi : assignedSize i v = some n := by
          rw [hlast, Option.none_or] at hn
          cases hi : assignedSize i v with
          | none => simp [hi] at hn
          | some m => simpa [hi] using hn
        have hglobal : next.global.along i = n := global_of_assigned hset hi
        rw [along_global] at hglobal ⊢
        rw [hblock, hgrid, hglobal]
  unassigned i hnone := by
    rw [assignedSizes_cons, List.append_eq_nil_iff] at hnone
    obtain ⟨hi, hrest⟩ := hnone
    obtain ⟨hblock, hgrid⟩ := untouched_of_unassigned hset (Option.toList_eq_nil_iff.mp hi)
    obtain ⟨hblock', hgrid'⟩ := h.unassigned i hrest
    exact ⟨hblock'.trans hblock, hgrid'.trans hgrid⟩
  offset := h.offset.trans (keepsOthers_of_set hset)

/-- Whatever the global sizes are, as long as each is accepted. -/
theorem Admissible.accumulates {d after : Dispatch} (hd : d.Admissible) {vs : List Value}
    (h : d.setGlobals vs = .ok after) : d.Accumulates vs after := by
  induction vs generalizing d with
  | nil =>
      cases h
      exact accumulates_nil hd
  | cons v rest ih =>
      rw [setGlobals_cons] at h
      obtain ⟨next, hset, hrest⟩ := Steps.bind_ok_iff.mp h
      exact .cons hset (ih (hd.set hset) hrest)

/-- How a geometry takes global sizes. -/
structure TakesGlobals (d : Dispatch) : Prop where
  accumulates : ∀ vs after, d.setGlobals vs = .ok after → d.Accumulates vs after
  /-- The block of a dimension becomes the greatest number that divides the old block and
  the size, which is the size itself if there was no thread in the block. -/
  reduces : ∀ v after, d.set .global v = .ok after → ∀ i n, assignedSize i v = some n →
    IsGreatest {k : Int | k ∣ n ∧ k ∣ d.block.along i} (after.block.along i) ∧
      (d.block.along i = 0 → after.block.along i = n)
  twice : ∀ v, d.setGlobals [v, v] = d.setGlobals [v]
  /-- Its own global size, if there is a thread at all. -/
  own : (∀ i, 0 < d.global.along i) → d.set .global (written d.global) = .ok d

theorem Admissible.twice {d : Dispatch} (hd : d.Admissible) (v : Value) :
    d.setGlobals [v, v] = d.setGlobals [v] := by
  rw [setGlobals_cons, setGlobals_cons]
  cases hset : d.set .global v with
  | error e => rfl
  | ok after =>
      have hagain : after.set .global v = .ok after := by
        cases assigns_of_set hset with
        | @global size given admitted =>
            refine setGlobal_covered given (hd.set hset).block ?_
            intro i n hi
            have hn : assignedSize i v = some n := by
              simp [assignedSize, given, Except.toOption, hi]
            exact ⟨admitted i n hi, (global_of_assigned hset hn).symm⟩
      calc after.setGlobals [v]
          = after.set .global v >>= (·.setGlobals []) := setGlobals_cons ..
        _ = after.setGlobals [] := by rw [hagain]; rfl

theorem Admissible.takesGlobals {d : Dispatch} (hd : d.Admissible) : d.TakesGlobals where
  accumulates vs after h := hd.accumulates h
  reduces v after h i n hn := by
    obtain ⟨hblock, _, hpos⟩ := along_of_setGlobal h i
    rw [hblock, hn]
    refine ⟨isGreatest_fittedBlock _ (hpos n hn), ?_⟩
    intro hzero
    rw [hzero]
    exact fittedBlock_zero (hpos n hn)
  twice := hd.twice
  own h := by
    refine setGlobal_covered (partialTriple_written d.global) hd.block ?_
    intro i n hi
    have hn : d.global.along i = n := by simpa using hi
    exact ⟨hn ▸ h i, hn.symm⟩

end Dispatch

namespace Geometries

/-- Every reachable geometry takes sequences of global sizes this way. -/
theorem run_takesGlobals (ops : List Op) {name : String} {d : Dispatch}
    (h : empty.run ops name = some d) : d.TakesGlobals := by
  have hempty : empty.AllAdmissible := fun _ _ hname => by cases hname
  exact (hempty.run ops name d h).takesGlobals

/-- Blocks of twelve threads in the first dimension, six in the second and none in the
third. -/
def sampleBlocks : List Op :=
  [.make "g" (some (.list [.int 12, .int 6, .int 0])) none (some (.int 5))]

/-- The first dimension is assigned twice, the second once, and the third is left out. -/
theorem sample_takesGlobals :
    empty.run sampleBlocks "g" = some ⟨⟨12, 6, 0⟩, ⟨1, 1, 1⟩, ⟨5, 0, 0⟩⟩ ∧
    (⟨⟨12, 6, 0⟩, ⟨1, 1, 1⟩, ⟨5, 0, 0⟩⟩ : Dispatch).TakesGlobals ∧
    (⟨⟨12, 6, 0⟩, ⟨1, 1, 1⟩, ⟨5, 0, 0⟩⟩ : Dispatch).setGlobals
        [.list [.int 8, .int 9], .int 18] =
      .ok ⟨⟨2, 3, 0⟩, ⟨9, 3, 1⟩, ⟨5, 0, 0⟩⟩ := by
  have hmade : empty.run sampleBlocks "g" = some ⟨⟨12, 6, 0⟩, ⟨1, 1, 1⟩, ⟨5, 0, 0⟩⟩ := by
    decide +kernel
  exact ⟨hmade, run_takesGlobals sampleBlocks hmade, rfl⟩

end Geometries

end KernelLaunch.Geometry
