import KernelLaunch.Proofs.Geometry.Assignments

/-!
Reachable geometries: any number of them, constructed from any values, assigned to and
copied in any order. Setters are run as in-place statements here, one read and write after
the other, with a division that can fail; it is proved that a setter which raises has
written nothing.
-/

namespace KernelLaunch.Geometry

open Host Steps

/-- Why an assignment in place stops. -/
inductive Stop where
  | refused (e : Failure)
  | divisionByZero

/-- Steps on a geometry in place. What is written before a stop stays written. -/
abbrev InPlace := ExceptT Stop (StateM Dispatch)

namespace InPlace

variable {α : Type}

/-- A computation that may refuse what is assigned. -/
def accept : Except Failure α → InPlace α
  | .ok a => pure a
  | .error e => throw (.refused e)

def divide (n m : Int) : InPlace Int := if m = 0 then throw .divisionByZero else return n / m

/-- The block and the grid of one dimension for a global size. -/
def fit (block grid : Int) : Option Int → InPlace (Int × Int)
  | none => return (block, grid)
  | some size => do
      let common : Int := Int.gcd block size
      return (common, ← divide size common)

/-- A geometry is fitted to a global size dimension by dimension. Then its block and
its grid are written, one after the other. -/
def fitTo (size : Triple (Option Int)) : InPlace Unit := do
  let d ← get
  let x ← fit d.block.x d.grid.x size.x
  let y ← fit d.block.y d.grid.y size.y
  let z ← fit d.block.z d.grid.z size.z
  modify fun d => { d with block := ⟨x.1, y.1, z.1⟩ }
  modify fun d => { d with grid := ⟨x.2, y.2, z.2⟩ }

/-- A size is read and looked at before anything is written. -/
def guarded (given : Except Failure α) (refused : α → Bool) (reason : α → SizeError)
    (write : α → InPlace Unit) : InPlace Unit := do
  let size ← accept given
  if refused size then throw (.refused (.size (reason size)))
  write size

def assign : Field → Value → InPlace Unit
  | .block, v =>
      guarded (triple 1 v) (·.any (· < 0)) (fun t => .negativeBlock (t.map some).toList)
        fun block => modify fun d => { d with block }
  | .grid, v =>
      guarded (triple 1 v) (·.any (· ≤ 0)) (fun t => .nonPositiveGrid (t.map some).toList)
        fun grid => modify fun d => { d with grid }
  | .offset, v =>
      guarded (triple 0 v) (·.any (· < 0)) (fun t => .negativeOffset (t.map some).toList)
        fun offset => modify fun d => { d with offset }
  | .global, v =>
      guarded (partialTriple v) (·.any fun c => c.any (· ≤ 0))
        (fun t => .nonPositiveGlobal t.toList) fitTo

/-- A division by a common divisor of a positive size is never one by zero. -/
theorem perform_fit (block grid : Int) {size : Option Int} (h : ∀ n, size = some n → 0 < n)
    (d : Dispatch) :
    perform (fit block grid size) d =
      (.ok (Dispatch.fittedBlock block size, Dispatch.fittedGrid block grid size), d) := by
  cases size with
  | none => rfl
  | some n =>
      have hpos : 0 < (Int.gcd block n : Int) := Dispatch.fittedBlock_pos block (h n rfl)
      rw [fit, perform_bind, divide, if_neg (Int.ne_of_gt hpos)]
      rfl

theorem perform_fitTo {size : Triple (Option Int)}
    (h : size.any (fun c => c.any (· ≤ 0)) = false) (d : Dispatch) :
    perform (fitTo size) d = (.ok (), d.fitted size) := by
  have hpos (i : Axis) (n : Int) (hn : size.along i = some n) : 0 < n := by
    have hi := Triple.any_eq_false_iff.mp h i
    simpa [hn] using hi
  have hx := perform_fit d.block.x d.grid.x (hpos .x) d
  have hy := perform_fit d.block.y d.grid.y (hpos .y) d
  have hz := perform_fit d.block.z d.grid.z (hpos .z) d
  simp only [Triple.along] at hx hy hz
  simp only [fitTo, perform_bind, perform_get, perform_modify, hx, hy, hz]
  rfl

/-- A size that is refused leaves everything as it was. -/
theorem perform_guarded {given : Except Failure α} {refused : α → Bool} {reason : α → SizeError}
    {write : α → InPlace Unit} {written : α → Dispatch} {d : Dispatch}
    (h : ∀ size, refused size = false → perform (write size) d = (.ok (), written size)) :
    perform (guarded given refused reason write) d =
      match (do
        let size ← given
        if refused size then .error (.size (reason size)) else return written size :
          Except Failure Dispatch) with
      | .ok after => (.ok (), after)
      | .error e => (.error (.refused e), d) := by
  cases given with
  | error e => rfl
  | ok size =>
      cases hrefused : refused size with
      | true =>
          simp only [guarded, accept, perform_bind, perform_pure, hrefused, if_true]
          simp [bind, Except.bind, hrefused]
      | false =>
          simp only [guarded, accept, perform_bind, perform_pure, hrefused]
          simp [bind, Except.bind, hrefused, h size hrefused, pure, Except.pure]

/-- An assignment in place comes to what the assignment comes to, and one that stops
leaves the geometry as it was. -/
theorem perform_assign (f : Field) (v : Value) (d : Dispatch) :
    perform (assign f v) d = match d.set f v with
      | .ok after => (.ok (), after)
      | .error e => (.error (.refused e), d) := by
  cases f with
  | block => exact perform_guarded fun _ _ => rfl
  | grid => exact perform_guarded fun _ _ => rfl
  | offset => exact perform_guarded fun _ _ => rfl
  | global => exact perform_guarded fun _ hsize => perform_fitTo hsize d

end InPlace

namespace Dispatch

/-- Three components as a caller writes them. -/
def written (t : Triple Int) : Value := .list (t.toList.map Value.int)

/-- A copy is made anew from the sizes. -/
def copy (d : Dispatch) : Except Failure Dispatch :=
  make (some (written d.block)) (some (written d.grid)) (some (written d.offset))

theorem triple_written (missing : Int) (t : Triple Int) :
    triple missing (written t) = .ok t := by
  simp [triple, components, written, sizeItems, Value.isSequence, Value.items, Value.items?,
    Triple.toList, Value.component, Value.integerPart, Triple.ofList, bind, Except.bind, pure,
    Except.pure]

/-- A geometry is made by three assignments. -/
theorem make_eq (block grid offset : Option Value) :
    make block grid offset = initial.setAll [(.block, block.getD (.int 1)),
      (.grid, grid.getD (.int 1)), (.offset, offset.getD (.int 0))] := by
  simp only [setAll, List.foldlM_cons, List.foldlM_nil, make, set]
  simp

theorem make_admissible {block grid offset : Option Value} {d : Dispatch}
    (h : make block grid offset = .ok d) : d.Admissible := by
  rw [make_eq] at h
  exact initial_admissible.setAll h

/-- What has been admitted once is admitted again. -/
theorem Admissible.copy_eq {d : Dispatch} (h : d.Admissible) : d.copy = .ok d := by
  obtain ⟨hblock, hgrid, hoffset⟩ := h
  have hb : d.block.any (· < 0) = false :=
    Triple.any_eq_false_iff.mpr fun i => by simpa using hblock i
  have hg : d.grid.any (· ≤ 0) = false :=
    Triple.any_eq_false_iff.mpr fun i => by simpa using hgrid i
  have ho : d.offset.any (· < 0) = false :=
    Triple.any_eq_false_iff.mpr fun i => by simpa using hoffset i
  simp [copy, make, setBlock, setGrid, setOffset, triple_written, hb, hg, ho, bind, Except.bind,
    pure, Except.pure]

/-- What an assignment to one size leaves as it was. -/
def KeepsOthers (d : Dispatch) (f : Field) (after : Dispatch) : Prop :=
  match f with
  | .block => after.grid = d.grid ∧ after.offset = d.offset
  | .grid => after.block = d.block ∧ after.offset = d.offset
  | .offset => after.block = d.block ∧ after.grid = d.grid
  | .global => after.offset = d.offset

theorem keepsOthers_of_set {d after : Dispatch} {f : Field} {v : Value}
    (h : d.set f v = .ok after) : d.KeepsOthers f after := by
  cases assigns_of_set h with
  | block => exact ⟨rfl, rfl⟩
  | grid => exact ⟨rfl, rfl⟩
  | offset => exact ⟨rfl, rfl⟩
  | global => rfl

end Dispatch

/-- Geometries under names. -/
def Geometries := String → Option Dispatch

namespace Geometries

inductive Op where
  | make (name : String) (block grid offset : Option Value)
  | assign (name : String) (f : Field) (v : Value)
  | copy (name target : String)

def empty : Geometries := fun _ => none

def put (s : Geometries) (name : String) (d : Dispatch) : Geometries :=
  fun other => if other = name then some d else s other

/-- What cannot be made or copied is not there. What is assigned to is there
afterwards as the assignment leaves it, whether it stops or not. -/
def step (s : Geometries) : Op → Geometries
  | .make name block grid offset => ((Dispatch.make block grid offset).toOption).elim s (s.put name)
  | .assign name f v =>
      (s name).elim s fun d => s.put name (perform (InPlace.assign f v) d).2
  | .copy name target => ((s name).bind (·.copy.toOption)).elim s (s.put target)

def run (s : Geometries) (ops : List Op) : Geometries := ops.foldl step s

def AllAdmissible (s : Geometries) : Prop := ∀ name d, s name = some d → d.Admissible

theorem AllAdmissible.put {s : Geometries} (h : s.AllAdmissible) (name : String) {d : Dispatch}
    (hd : d.Admissible) : (s.put name d).AllAdmissible := by
  intro other d' hother
  unfold Geometries.put at hother
  split at hother
  · cases hother
    exact hd
  · exact h other d' hother

theorem AllAdmissible.step {s : Geometries} (h : s.AllAdmissible) (op : Op) :
    (s.step op).AllAdmissible := by
  cases op with
  | make name block grid offset =>
      cases hmake : Dispatch.make block grid offset with
      | error e =>
          rw [Geometries.step, hmake]
          exact h
      | ok d =>
          simp only [Geometries.step, hmake]
          exact h.put name (Dispatch.make_admissible hmake)
  | assign name f v =>
      cases hname : s name with
      | none =>
          rw [Geometries.step, hname]
          exact h
      | some d =>
          simp only [Geometries.step, hname, Option.elim_some, InPlace.perform_assign]
          have hd := h name d hname
          cases hset : d.set f v with
          | error e => exact h.put name hd
          | ok after => exact h.put name (hd.set hset)
  | copy name target =>
      cases hname : s name with
      | none =>
          rw [Geometries.step, hname]
          exact h
      | some d =>
          have hd := h name d hname
          simp only [Geometries.step, hname, Option.bind_some, hd.copy_eq]
          exact h.put target hd

theorem AllAdmissible.run {s : Geometries} (h : s.AllAdmissible) (ops : List Op) :
    (s.run ops).AllAdmissible := by
  induction ops generalizing s with
  | nil => exact h
  | cons op rest ih => exact ih (h.step op)

/-- A geometry as it always is, whatever is assigned to it next. -/
structure Kept (d : Dispatch) : Prop where
  block : ∀ i, 0 ≤ d.block.along i
  grid : ∀ i, 1 ≤ d.grid.along i
  offset : ∀ i, 0 ≤ d.offset.along i
  global : ∀ i, d.global.along i = d.grid.along i * d.block.along i
  copy : d.copy = .ok d
  /-- An assignment that stops has refused what is assigned, and has divided by no
  zero. It leaves the geometry as it was. -/
  stopped : ∀ f v stop after, perform (InPlace.assign f v) d = (.error stop, after) →
    after = d ∧ ∃ e, stop = .refused e ∧ d.set f v = .error e
  assigned : ∀ f v after, perform (InPlace.assign f v) d = (.ok (), after) →
    d.set f v = .ok after ∧ d.KeepsOthers f after

theorem kept_of_admissible {d : Dispatch} (h : d.Admissible) : Kept d where
  block := h.block
  grid := h.grid
  offset := h.offset
  global i := Triple.along_zipWith ..
  copy := h.copy_eq
  stopped f v stop after hstop := by
    rw [InPlace.perform_assign] at hstop
    cases hset : d.set f v with
    | error e =>
        simp only [hset, Prod.mk.injEq, Except.error.injEq] at hstop
        obtain ⟨rfl, rfl⟩ := hstop
        exact ⟨rfl, e, rfl, rfl⟩
    | ok d' => simp [hset] at hstop
  assigned f v after hafter := by
    rw [InPlace.perform_assign] at hafter
    cases hset : d.set f v with
    | error e => simp [hset] at hafter
    | ok d' =>
        simp only [hset, Prod.mk.injEq, true_and] at hafter
        subst hafter
        exact ⟨rfl, Dispatch.keepsOthers_of_set hset⟩

/-- After any constructions, assignments and copies, every geometry satisfies the size
invariant, and an assignment that raises leaves it as it was. -/
theorem run_kept (ops : List Op) {name : String} {d : Dispatch}
    (h : empty.run ops name = some d) : Kept d := by
  have hempty : empty.AllAdmissible := fun _ _ hname => by cases hname
  exact kept_of_admissible (hempty.run ops name d h)

/-- Blocks of four threads for six threads, and a copy without threads in the first
dimension. A text and a negative grid are refused in between. -/
def sampleOps : List Op :=
  [.make "g" none none none, .assign "g" .block (.int 4), .assign "g" .grid (.int (-1)),
    .assign "g" .global (.list [.int 6, .truth true]), .copy "g" "h",
    .assign "g" .offset (.text "1"), .assign "h" .block (.int 0)]

theorem sample_kept :
    empty.run sampleOps "g" = some ⟨⟨2, 1, 1⟩, ⟨3, 1, 1⟩, ⟨0, 0, 0⟩⟩ ∧
    empty.run sampleOps "h" = some ⟨⟨0, 1, 1⟩, ⟨3, 1, 1⟩, ⟨0, 0, 0⟩⟩ ∧
    Kept ⟨⟨2, 1, 1⟩, ⟨3, 1, 1⟩, ⟨0, 0, 0⟩⟩ ∧ Kept ⟨⟨0, 1, 1⟩, ⟨3, 1, 1⟩, ⟨0, 0, 0⟩⟩ := by
  have hg : empty.run sampleOps "g" = some ⟨⟨2, 1, 1⟩, ⟨3, 1, 1⟩, ⟨0, 0, 0⟩⟩ := by decide +kernel
  have hh : empty.run sampleOps "h" = some ⟨⟨0, 1, 1⟩, ⟨3, 1, 1⟩, ⟨0, 0, 0⟩⟩ := by decide +kernel
  exact ⟨hg, hh, run_kept sampleOps hg, run_kept sampleOps hh⟩

end Geometries

end KernelLaunch.Geometry
