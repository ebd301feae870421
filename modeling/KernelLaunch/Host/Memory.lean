import KernelLaunch.Host.Value

/-!
Host memory with array identity. An array is a view of memory cells, and several arrays may
view the same cells: a write through one of them is read through all. A value that is no
array has no cells.
-/

namespace KernelLaunch.Host

/-- What the cells of memory hold: for each storage type an element in every cell. -/
def Memory : Type := (s : Storage) → Nat → s.Elem

namespace Memory

/-- Memory with a zero in each cell. -/
def blank : Memory := fun s _ => Storage.convert .truth s (false : Bool)

/-- Memory with another element in one cell. -/
def set (m : Memory) (s : Storage) (cell : Nat) (e : s.Elem) : Memory := fun t other =>
  if h : s = t then if other = cell then h ▸ e else m t other else m t other

/-- Memory with elements written into cells, from the first to the last. -/
def write {s : Storage} : List Nat → List s.Elem → Memory → Memory
  | cell :: cells, e :: elements, m => write cells elements (m.set s cell e)
  | _, _, m => m

variable {m : Memory} {s : Storage}

@[simp] theorem set_same (cell : Nat) (e : s.Elem) : m.set s cell e s cell = e := by
  simp [set]

theorem set_other {t : Storage} {cell other : Nat} (e : s.Elem) (h : s ≠ t ∨ other ≠ cell) :
    m.set s cell e t other = m t other := by
  unfold set
  by_cases hs : s = t
  · rw [dif_pos hs, if_neg (h.resolve_left (absurd hs))]
  · rw [dif_neg hs]

theorem write_other {t : Storage} {cells : List Nat} {elements : List s.Elem} {other : Nat}
    (h : s ≠ t ∨ other ∉ cells) : write cells elements m t other = m t other := by
  induction cells generalizing elements m with
  | nil => rfl
  | cons cell cells ih =>
      cases elements with
      | nil => rfl
      | cons e elements =>
          rw [write, ih (h.imp_right fun hnot hmem => hnot (List.mem_cons_of_mem _ hmem))]
          exact set_other e (h.imp_right fun hnot heq => hnot (heq ▸ List.mem_cons_self))

/-- What is written into cells is read from them, if each is written once. -/
theorem write_read {cells : List Nat} {elements : List s.Elem} (distinct : cells.Nodup)
    (count : elements.length = cells.length) :
    cells.map (write cells elements m s) = elements := by
  induction cells generalizing elements m with
  | nil => exact (List.length_eq_zero_iff.mp count).symm
  | cons cell cells ih =>
      obtain ⟨hnot, distinct⟩ := List.nodup_cons.mp distinct
      cases elements with
      | nil => cases count
      | cons e elements =>
          rw [List.map_cons, write, write_other (.inr hnot), set_same,
            ih distinct (Nat.succ.inj count)]

end Memory

/-- An array with other elements, which have to be of its type and as many. -/
def HostArray.refill (a : HostArray) (t : Tensor) : HostArray :=
  if h : t.storage = a.tensor.storage ∧ t.size = a.tensor.size then
    { a with tensor := ⟨t.storage, t.grid.reshape a.tensor.grid.shape h.2.symm⟩ }
  else a

/-- An array as a row of all its elements. -/
def HostArray.flat (a : HostArray) : HostArray :=
  { a with
    tensor := ⟨a.tensor.storage, a.tensor.grid.flat⟩
    columnMajor := false }

/-- An array as a view of memory, with a distinct cell for each element. -/
structure View where
  storage : Storage
  /-- The cell of each element. -/
  cells : Grid Nat
  distinct : cells.cells.Nodup
  columnMajor : Bool
  readOnly : Bool

namespace View

/-- What an array holds. -/
def array (v : View) (m : Memory) : HostArray :=
  ⟨⟨v.storage, v.cells.map (m v.storage)⟩, v.columnMajor, v.readOnly⟩

/-- Whether two views overlap. -/
def Overlaps (v w : View) : Prop :=
  v.storage = w.storage ∧ ∃ cell ∈ v.cells.cells, cell ∈ w.cells.cells

instance (v w : View) : Decidable (v.Overlaps w) :=
  inferInstanceAs (Decidable (_ ∧ _))

/-- The memory after a tensor has been written into an array, which has to be of the type and
of the size of the tensor. -/
def write (v : View) (t : Tensor) (m : Memory) : Memory :=
  if t.storage = v.storage ∧ t.size = v.cells.size then m.write v.cells.cells t.grid.cells else m

/-- The array as a row of all its elements, in the same memory. -/
def flat (v : View) : View :=
  { v with
    cells := v.cells.flat
    columnMajor := false }

/-- An array in new cells. -/
def fresh (a : HostArray) (next : Nat) : View where
  storage := a.tensor.storage
  cells := ⟨a.tensor.shape, List.range' next a.tensor.size, List.length_range'⟩
  distinct := List.nodup_range'
  columnMajor := a.columnMajor
  readOnly := a.readOnly

variable {v w : View} {m : Memory}

theorem array_write (v : View) (t : Tensor) (m : Memory) :
    v.array (v.write t m) = (v.array m).refill t := by
  by_cases h : t.storage = v.storage ∧ t.size = v.cells.size
  · obtain ⟨storage, cells, distinct, columnMajor, readOnly⟩ := v
    obtain ⟨storage', shape', cells', count'⟩ := t
    obtain ⟨rfl, hsize⟩ := h
    have hread := Memory.write_read (m := m) distinct (count'.trans (hsize.trans cells.count.symm))
    unfold write HostArray.refill
    rw [if_pos ⟨rfl, hsize⟩, dif_pos ⟨rfl, hsize⟩]
    simp only [array, HostArray.mk.injEq, Tensor.mk.injEq, heq_eq_eq, true_and, and_true]
    simp only [Grid.map, Grid.reshape, hread]
  · have hsame : v.write t m = m := if_neg h
    have hkept : (v.array m).refill t = v.array m := dif_neg h
    rw [hsame, hkept]

theorem array_write_of_apart {t : Tensor} (h : ¬ w.Overlaps v) :
    v.array (w.write t m) = v.array m := by
  unfold write
  split
  · next hfits =>
    have hcells : ∀ cell ∈ v.cells.cells,
        m.write w.cells.cells t.grid.cells v.storage cell = m v.storage cell := by
      intro cell hcell
      refine Memory.write_other ?_
      by_cases hstorage : t.storage = v.storage
      · exact .inr fun hmem => h ⟨hfits.1.symm.trans hstorage, cell, hmem, hcell⟩
      · exact .inl hstorage
    unfold array
    congr 2
    exact Grid.mk.injEq .. |>.mpr ⟨rfl, List.map_congr_left hcells⟩
  · rfl

theorem array_flat (v : View) (m : Memory) : v.flat.array m = (v.array m).flat := by
  obtain ⟨storage, ⟨shape, cells, count⟩, distinct, columnMajor, readOnly⟩ := v
  simp [flat, array, HostArray.flat, Grid.flat, Grid.map]

end View

/-- A reference of the caller: a view of memory, or a value without memory. -/
inductive Reference where
  | view (v : View)
  | atom (a : Atom)
  | list (items : List Value)

namespace Reference

def value (m : Memory) : Reference → Value
  | view v => .array (v.array m)
  | atom a => .atom a
  | list items => .list items

/-- Whether two references share memory. -/
def Overlaps : Reference → Reference → Prop
  | view v, view w => v.Overlaps w
  | _, _ => False

/-- References for values that share no memory, in cells from one on. -/
def apart : (next : Nat) → List Value → Memory → List Reference × Memory
  | _, [], m => ([], m)
  | next, .array a :: rest, m =>
      let v := View.fresh a next
      let (references, m) := apart (next + a.tensor.size) rest (v.write a.tensor m)
      (view v :: references, m)
  | next, .atom a :: rest, m =>
      let (references, m) := apart next rest m
      (atom a :: references, m)
  | next, .list items :: rest, m =>
      let (references, m) := apart next rest m
      (list items :: references, m)

theorem fresh_array (a : HostArray) (next : Nat) (m : Memory) :
    (View.fresh a next).array ((View.fresh a next).write a.tensor m) = a := by
  rw [View.array_write]
  obtain ⟨⟨storage, shape, cells, count⟩, columnMajor, readOnly⟩ := a
  exact dif_pos ⟨rfl, rfl⟩

theorem fresh_apart {a : HostArray} {next : Nat} {v : View}
    (below : ∀ cell ∈ v.cells.cells, cell < next) : ¬ (View.fresh a next).Overlaps v := by
  rintro ⟨_, cell, hfresh, hcell⟩
  have hnext : next ≤ cell := (List.mem_range'_1.mp hfresh).1
  exact Nat.not_lt.mpr hnext (below cell hcell)

/-- What lies below the cells that are used stays as it is. -/
theorem apart_below {next : Nat} {values : List Value} {m : Memory} {v : View}
    (below : ∀ cell ∈ v.cells.cells, cell < next) :
    v.array (apart next values m).2 = v.array m := by
  induction values generalizing next m with
  | nil => rfl
  | cons value rest ih =>
      cases value with
      | array a =>
          have hlater : ∀ cell ∈ v.cells.cells, cell < next + a.tensor.size :=
            fun cell hcell => Nat.lt_of_lt_of_le (below cell hcell) (Nat.le_add_right ..)
          exact (ih hlater).trans (View.array_write_of_apart (fresh_apart below))
      | atom | list => exact ih below

theorem apart_values (next : Nat) (values : List Value) (m : Memory) :
    (apart next values m).1.map (value (apart next values m).2) = values := by
  induction values generalizing next m with
  | nil => rfl
  | cons value rest ih =>
      cases value with
      | array a =>
          have hlater : ∀ cell ∈ (View.fresh a next).cells.cells, cell < next + a.tensor.size :=
            fun cell hcell => (List.mem_range'_1.mp hcell).2
          refine congr (congrArg List.cons (congrArg Value.array ?_)) (ih _ _)
          exact (apart_below hlater).trans (fresh_array a next m)
      | atom | list => exact congrArg _ (ih _ _)

theorem apart_from {next : Nat} {values : List Value} {m : Memory} {v : View}
    (h : view v ∈ (apart next values m).1) : ∀ cell ∈ v.cells.cells, next ≤ cell := by
  induction values generalizing next m with
  | nil => cases h
  | cons value rest ih =>
      cases value with
      | array a =>
          rcases List.mem_cons.mp h with h | h
          · cases h
            exact fun cell hcell => (List.mem_range'_1.mp hcell).1
          · exact fun cell hcell => Nat.le_trans (Nat.le_add_right ..) (ih h cell hcell)
      | atom | list =>
          rcases List.mem_cons.mp h with h | h
          · cases h
          · exact ih h

/-- No two of them share memory. -/
theorem apart_pairwise (next : Nat) (values : List Value) (m : Memory) :
    (apart next values m).1.Pairwise fun r r' => ¬ r.Overlaps r' := by
  induction values generalizing next m with
  | nil => exact .nil
  | cons value rest ih =>
      cases value with
      | array a =>
          refine .cons (fun r hr hoverlaps => ?_) (ih _ _)
          cases r with
          | atom | list => exact hoverlaps
          | view v =>
              obtain ⟨_, cell, hfirst, hcell⟩ := hoverlaps
              have hbelow := (List.mem_range'_1.mp hfirst).2
              exact Nat.not_lt.mpr (apart_from hr cell hcell) hbelow
      | atom | list => exact .cons (fun _ _ hoverlaps => hoverlaps) (ih _ _)

end Reference

/-- Values as they lie in memory. -/
structure Placed (values : List Value) where
  memory : Memory
  references : List Reference
  values_eq : references.map (·.value memory) = values

/-- Values that share no memory. -/
def Placed.apart (values : List Value) : Placed values where
  memory := (Reference.apart 0 values .blank).2
  references := (Reference.apart 0 values .blank).1
  values_eq := Reference.apart_values 0 values .blank

end KernelLaunch.Host
