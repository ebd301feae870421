import KernelLaunch.Proofs.Geometry.Assignments

/-!
Geometry assignments that commute. Whether a size is accepted does not depend on the
geometry. A global size reads the block size and sets block and grid; every other assignment
sets one field and reads none.
-/

namespace KernelLaunch.Geometry

open Host

namespace Dispatch

/-- What the assignment of a size does to any geometry. -/
inductive Rewrites (v : Value) : Field → (Dispatch → Dispatch) → Prop where
  | block {block : Triple Int} (given : triple 1 v = .ok block)
      (admitted : block.any (· < 0) = false) : Rewrites v .block fun d => { d with block }
  | grid {grid : Triple Int} (given : triple 1 v = .ok grid)
      (admitted : grid.any (· ≤ 0) = false) : Rewrites v .grid fun d => { d with grid }
  | offset {offset : Triple Int} (given : triple 0 v = .ok offset)
      (admitted : offset.any (· < 0) = false) : Rewrites v .offset fun d => { d with offset }
  | global {size : Triple (Option Int)} (given : partialTriple v = .ok size)
      (admitted : size.any (fun c => c.any (· ≤ 0)) = false) : Rewrites v .global (·.fitted size)

theorem checked_ok_iff {α β : Type} {x : Except Failure α} {bad : α → Bool} {e : α → Failure}
    {f : α → β} {b : β} :
    (x >>= fun a => if bad a then .error (e a) else .ok (f a)) = .ok b ↔
      ∃ a, x = .ok a ∧ bad a = false ∧ b = f a := by
  rw [Steps.bind_ok_iff]
  refine exists_congr fun a => and_congr_right fun _ => ?_
  cases bad a with
  | true => simp
  | false => simp [eq_comm]

theorem set_ok_iff {d d' : Dispatch} {f : Field} {v : Value} :
    d.set f v = .ok d' ↔ ∃ g, Rewrites v f g ∧ d' = g d := by
  constructor
  · intro h
    cases f with
    | block =>
        obtain ⟨block, hgiven, hadmitted, rfl⟩ := checked_ok_iff.mp h
        exact ⟨_, .block hgiven hadmitted, rfl⟩
    | grid =>
        obtain ⟨grid, hgiven, hadmitted, rfl⟩ := checked_ok_iff.mp h
        exact ⟨_, .grid hgiven hadmitted, rfl⟩
    | offset =>
        obtain ⟨offset, hgiven, hadmitted, rfl⟩ := checked_ok_iff.mp h
        exact ⟨_, .offset hgiven hadmitted, rfl⟩
    | global =>
        obtain ⟨size, hgiven, hadmitted, rfl⟩ := checked_ok_iff.mp h
        exact ⟨_, .global hgiven hadmitted, rfl⟩
  · rintro ⟨g, hrewrites, rfl⟩
    cases hrewrites with
    | block hgiven hadmitted => exact checked_ok_iff.mpr ⟨_, hgiven, hadmitted, rfl⟩
    | grid hgiven hadmitted => exact checked_ok_iff.mpr ⟨_, hgiven, hadmitted, rfl⟩
    | offset hgiven hadmitted => exact checked_ok_iff.mpr ⟨_, hgiven, hadmitted, rfl⟩
    | global hgiven hadmitted => exact checked_ok_iff.mpr ⟨_, hgiven, hadmitted, rfl⟩

end Dispatch

/-- A global size and a size that it is fitted to, or that it sets. -/
def Field.Fits : Field → Field → Prop
  | .global, f => f = .block ∨ f = .grid
  | _, _ => False

/-- Two sizes that can be assigned in either order. -/
structure Field.Apart (f f' : Field) : Prop where
  different : f ≠ f'
  forth : ¬ f.Fits f'
  back : ¬ f'.Fits f

theorem Dispatch.Rewrites.commute {v v' : Value} {f f' : Field} {g g' : Dispatch → Dispatch}
    (h : Rewrites v f g) (h' : Rewrites v' f' g') (hapart : f.Apart f') (d : Dispatch) :
    g' (g d) = g (g' d) := by
  cases h with
  | block =>
      cases h' with
      | block => exact absurd rfl hapart.different
      | grid => rfl
      | offset => rfl
      | global => exact absurd (.inl rfl) hapart.back
  | grid =>
      cases h' with
      | block => rfl
      | grid => exact absurd rfl hapart.different
      | offset => rfl
      | global => exact absurd (.inr rfl) hapart.back
  | offset =>
      cases h' with
      | offset => exact absurd rfl hapart.different
      | _ => rfl
  | global =>
      cases h' with
      | block => exact absurd (.inl rfl) hapart.forth
      | grid => exact absurd (.inr rfl) hapart.forth
      | offset => rfl
      | global => exact absurd rfl hapart.different

/-- A global size is fitted to the block size that it finds. -/
example :
    (Dispatch.initial.setAll [(.block, .int 32), (.global, .int 96)]).toOption.map (·.grid) =
      some ⟨3, 1, 1⟩ ∧
    (Dispatch.initial.setAll [(.global, .int 96), (.block, .int 32)]).toOption.map (·.grid) =
      some ⟨96, 1, 1⟩ := by decide

end KernelLaunch.Geometry
