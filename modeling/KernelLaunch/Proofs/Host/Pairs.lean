import KernelLaunch.Host.NumberType
import KernelLaunch.Proofs.Host.Collect

/-!
Round trips between complex arrays and real arrays with a leading dimension of two.
Splitting stores real parts in the first row and imaginary parts in the second, and joining
takes the rows apart where they were put together, for every shape, with arrays without
dimensions and empty ones included.
-/

namespace KernelLaunch.Host

open Number

namespace Grid

variable {α β : Type}

theorem ext_of {g g' : Grid α} (hshape : g.shape = g'.shape) (hcells : g.cells = g'.cells) :
    g = g' := by
  obtain ⟨shape, cells, count⟩ := g
  obtain ⟨shape', cells', count'⟩ := g'
  cases hshape
  cases hcells
  rfl

theorem row_pair_first (f k : α → β) (g : Grid α) :
    (g.pair f k).row rfl ⟨0, Nat.zero_lt_two⟩ = g.map f := by
  refine ext_of rfl ?_
  change List.take (volume g.shape) (List.drop (0 * volume g.shape)
    (g.cells.map f ++ g.cells.map k)) = g.cells.map f
  rw [Nat.zero_mul, List.drop_zero, List.take_left' (by rw [List.length_map, g.count])]

theorem row_pair_second (f k : α → β) (g : Grid α) :
    (g.pair f k).row rfl ⟨1, Nat.one_lt_two⟩ = g.map k := by
  refine ext_of rfl ?_
  change List.take (volume g.shape) (List.drop (1 * volume g.shape)
    (g.cells.map f ++ g.cells.map k)) = g.cells.map k
  have hcount : (g.cells.map f).length = volume g.shape := by rw [List.length_map, g.count]
  have hcount' : (g.cells.map k).length = volume g.shape := by rw [List.length_map, g.count]
  rw [Nat.one_mul, ← hcount, List.drop_left, hcount, ← hcount', List.take_length]

/-- A grid of two rows is what its rows make. -/
theorem cells_of_rows {g : Grid α} {shape : List Nat} (h : g.shape = 2 :: shape) :
    (g.row h ⟨0, Nat.zero_lt_two⟩).cells ++ (g.row h ⟨1, Nat.one_lt_two⟩).cells = g.cells := by
  have hcount : g.cells.length = 2 * volume shape := by rw [g.count, h, volume_cons]
  have hrest : (g.cells.drop (volume shape)).length ≤ volume shape := by
    rw [List.length_drop]
    omega
  change (g.cells.drop (0 * volume shape)).take (volume shape) ++
    (g.cells.drop (1 * volume shape)).take (volume shape) = g.cells
  rw [Nat.zero_mul, Nat.one_mul, List.drop_zero, List.take_of_length_le hrest,
    List.take_append_drop]

theorem pair_rows {g : Grid α} {shape : List Nat} (h : g.shape = 2 :: shape) :
    ((g.row h ⟨0, Nat.zero_lt_two⟩).zipWith Prod.mk (g.row h ⟨1, Nat.one_lt_two⟩) rfl).pair
      Prod.fst Prod.snd = g := by
  have hlengths : (g.row h ⟨0, Nat.zero_lt_two⟩).cells.length =
      (g.row h ⟨1, Nat.one_lt_two⟩).cells.length := by
    rw [Grid.count, Grid.count]
    rfl
  refine ext_of h.symm ((congr (congrArg _ ?_) ?_).trans (cells_of_rows h))
  · exact List.map_fst_zip (Nat.le_of_eq hlengths)
  · exact List.map_snd_zip (Nat.le_of_eq hlengths.symm)

end Grid

namespace Tensor

/-- A tensor with two rows at least is joined from the first two. -/
theorem join_of_shape {t : Tensor} {n : Nat} {shape : List Nat} (h : t.grid.shape = n :: shape)
    (hn : 2 ≤ n) :
    t.join = .ok ⟨.complex t.storage.paired,
      (t.grid.row h ⟨0, Nat.lt_of_succ_lt hn⟩).zipWith
        (fun a b => (t.storage.realPart t.storage.paired.precision a,
          t.storage.realPart t.storage.paired.precision b))
        (t.grid.row h ⟨1, hn⟩) rfl⟩ := by
  obtain ⟨storage, shape', cells, count⟩ := t
  dsimp only at h
  subst h
  simp [join, hn]

/-- Pairs of numbers, taken apart and put together in the precision that they have. -/
theorem zipWith_parts {p : Precision} (cells : List (Binary p × Binary p)) :
    List.zipWith (fun a b => (a.convert p, b.convert p)) (cells.map Prod.fst)
      (cells.map Prod.snd) = cells := by
  rw [List.zipWith_map, List.zipWith_self]
  refine (List.map_congr_left fun z _ => ?_).trans (List.map_id cells)
  exact Prod.ext (Binary.convert_self z.1) (Binary.convert_self z.2)

/-- What is split and joined is as it was. -/
theorem join_split {parts : Parts} (g : Grid (Storage.complex parts).Elem) :
    (split ⟨.complex parts, g⟩).join = .ok ⟨.complex parts, g⟩ := by
  have hfirst := congrArg Grid.cells (Grid.row_pair_first (Storage.complex parts).first
    (Storage.complex parts).second g)
  have hsecond := congrArg Grid.cells (Grid.row_pair_second (Storage.complex parts).first
    (Storage.complex parts).second g)
  rw [join_of_shape (n := 2) rfl (Nat.le_refl 2)]
  refine congrArg Except.ok ?_
  cases parts with
  | single =>
      refine congrArg (mk (.complex .single)) (Grid.ext_of rfl ?_)
      refine (congr (congrArg (List.zipWith _) hfirst) hsecond).trans ?_
      exact zipWith_parts (p := .single) g.cells
  | double =>
      refine congrArg (mk (.complex .double)) (Grid.ext_of rfl ?_)
      refine (congr (congrArg (List.zipWith _) hfirst) hsecond).trans ?_
      exact zipWith_parts (p := .double) g.cells

theorem zipWith_convert {p : Precision} (xs ys : List (Binary p)) :
    List.zipWith (fun a b => (a.convert p, b.convert p)) xs ys = xs.zip ys := by
  simp only [Binary.convert_self, List.zip]

/-- What is joined and split is as it was. -/
theorem split_join {parts : Parts} {g : Grid (Storage.real parts.precision).Elem}
    {shape : List Nat} (h : g.shape = 2 :: shape) :
    ∃ z : Grid (Storage.complex parts).Elem, z.shape = shape ∧
      join ⟨.real parts.precision, g⟩ = .ok ⟨.complex parts, z⟩ ∧
      split ⟨.complex parts, z⟩ = ⟨.real parts.precision, g⟩ := by
  refine ⟨(g.row h ⟨0, Nat.zero_lt_two⟩).zipWith Prod.mk (g.row h ⟨1, Nat.one_lt_two⟩) rfl, rfl,
    ?_, congrArg (mk (.real parts.precision)) (Grid.pair_rows h)⟩
  rw [join_of_shape h (Nat.le_refl 2)]
  refine congrArg Except.ok ?_
  cases parts with
  | single =>
      exact congrArg (mk (.complex .single))
        (Grid.ext_of rfl (zipWith_convert (p := .single) _ _))
  | double =>
      exact congrArg (mk (.complex .double))
        (Grid.ext_of rfl (zipWith_convert (p := .double) _ _))

end Tensor

/-- A complex tensor and the real one that stands for it: either becomes the other, and
they differ by a first dimension of extent two. -/
structure Parted (parts : Parts) (z e : Tensor) : Prop where
  complex : z.storage = .complex parts
  real : e.storage = .real parts.precision
  shape : e.shape = 2 :: z.shape
  split : ∀ a : HostArray, a.tensor = z → (Value.array a).split = .ok e
  join : ∀ a : HostArray, a.tensor = e → (Value.array a).join = .ok z

theorem Value.split_array {a : HostArray} (h : a.tensor.shape.length < maxDimensions) :
    (Value.array a).split = .ok a.tensor.split :=
  if_neg (Nat.not_le.mpr h)

theorem Value.join_array {a : HostArray} (h : a.tensor.shape.length ≤ maxDimensions) :
    (Value.array a).join = a.tensor.join := by
  unfold Value.join
  rw [Value.leaves_array a h]
  rfl

/-- Every complex tensor has its parts, if there is room for their dimension. -/
theorem exists_parted {parts : Parts} {z : Tensor} (h : z.storage = .complex parts)
    (hroom : z.shape.length < maxDimensions) : ∃ e, Parted parts z e := by
  obtain ⟨storage, g⟩ := z
  dsimp only at h
  subst h
  refine ⟨Tensor.split ⟨.complex parts, g⟩, rfl, rfl, rfl, ?_, ?_⟩
  · intro a ha
    rw [Value.split_array (by rw [ha]; exact hroom), ha]
  · intro a ha
    rw [Value.join_array (by rw [ha]; exact hroom), ha]
    exact Tensor.join_split g

/-- One complex number in an array of the most dimensions. -/
def deepest : HostArray :=
  .ofTensor ⟨.complex .single, List.replicate maxDimensions 1,
    [(Binary.ofInt .single 1, Binary.ofInt .single 2)], by decide +kernel⟩

/-- It is an array like any other, but its parts would need one dimension more. -/
theorem deepest_has_no_parts :
    (Value.array deepest).isComplex = .ok true ∧ deepest.tensor.shape = List.replicate 64 1 ∧
      ∀ e, (Value.array deepest).split ≠ .ok e := by
  refine ⟨by rfl, rfl, fun e he => ?_⟩
  have hrefused : (Value.array deepest).split = .error .badPosition := by rfl
  cases hrefused.symm.trans he

/-- Every real tensor of two rows, of a precision that parts can have, holds the parts of
some complex one. -/
theorem exists_parted_of_rows {parts : Parts} {e : Tensor} {shape : List Nat}
    (h : e.storage = .real parts.precision) (hrows : e.shape = 2 :: shape)
    (hroom : e.shape.length ≤ maxDimensions) : ∃ z, Parted parts z e := by
  obtain ⟨storage, g⟩ := e
  dsimp only at h
  subst h
  obtain ⟨z, hshape, hjoin, hsplit⟩ := Tensor.split_join hrows
  have hdims : z.shape.length < maxDimensions := by
    rw [hrows] at hroom
    rw [hshape]
    exact hroom
  refine ⟨⟨.complex parts, z⟩, rfl, rfl, by rw [hrows, ← hshape]; rfl, ?_, ?_⟩
  · rintro a ha
    rw [Value.split_array (by rw [ha]; exact hdims), ha, hsplit]
  · intro a ha
    rw [Value.join_array (by rw [ha]; exact hroom), ha, hjoin]

/-- The real and the complex number types belong to each other, and a complex number
takes twice the bytes. -/
theorem NumberType.parted (parts : Parts) :
    realFor (.stored (.complex parts)) = .ok (.stored (.real parts.precision)) ∧
      complexFor (.stored (.real parts.precision)) = .stored (.complex parts) ∧
      ∃ bytes, sizes (.stored (.real parts.precision)) = [('f', bytes)] ∧
        sizes (.stored (.complex parts)) = [('c', 2 * bytes)] := by
  cases parts with
  | single => exact ⟨rfl, rfl, 4, rfl, rfl⟩
  | double => exact ⟨rfl, rfl, 8, rfl, rfl⟩

end KernelLaunch.Host
