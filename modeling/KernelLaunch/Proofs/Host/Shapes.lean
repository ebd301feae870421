import KernelLaunch.Proofs.Host.Collect
import KernelLaunch.Proofs.Host.Content
import KernelLaunch.Proofs.Host.Pairs

/-!
Shapes under marshalling. Conversion to an array keeps the shape of a value, splitting adds
a leading dimension of two, and joining removes it.
-/

namespace KernelLaunch.Host

/-- The shape of a value as an array. Ragged lists have none. -/
def Value.shape? (v : Value) : Option (List Nat) := v.leaves?.map (·.shape)

theorem Value.shape?_ofTensor (t : Tensor) : (Value.ofTensor t).shape? = some t.shape := rfl

@[simp] theorem Value.shape?_content (v : Value) : v.content.shape? = v.shape? := by
  cases v <;> rfl

theorem Value.shape?_of_leaves {v : Value} {g : Grid Leaf} (h : v.leaves = .ok g) :
    v.shape? = some g.shape := by
  rw [Value.shape?, (Value.leaves_ok h).1]
  rfl

theorem Value.shape?_of_collect {v : Value} {t : Tensor} (h : v.collect = .ok t) :
    v.shape? = some t.shape := by
  cases v with
  | array a =>
      cases h
      rfl
  | atom | list =>
      obtain ⟨g, hleaves, _⟩ := Steps.bind_ok_iff.mp h
      rw [Value.shape?_of_leaves hleaves, Value.collect_shape hleaves h]

theorem Value.shape?_of_split {v : Value} {parts : Tensor} (h : v.split = .ok parts) :
    ∃ shape, v.shape? = some shape ∧ parts.shape = 2 :: shape := by
  obtain ⟨whole, hwhole, hsplit⟩ := Steps.bind_ok_iff.mp h
  split at hsplit
  · cases hsplit
  · cases hsplit
    exact ⟨whole.shape, Value.shape?_of_collect hwhole, rfl⟩

theorem Tensor.shape_of_join {t joined : Tensor} {shape : List Nat} (hshape : t.shape = 2 :: shape)
    (h : t.join = .ok joined) : joined.shape = shape := by
  rw [Tensor.join_of_shape hshape (Nat.le_refl 2)] at h
  cases h
  rfl

theorem Value.shape_of_join {v : Value} {t joined : Tensor} {shape : List Nat}
    (hcontent : v.content = .ofTensor t) (hshape : t.shape = 2 :: shape)
    (h : v.join = .ok joined) : joined.shape = shape := by
  rw [← Value.join_content, hcontent] at h
  obtain ⟨_, _, hjoin⟩ := Steps.bind_ok_iff.mp h
  exact Tensor.shape_of_join hshape hjoin

end KernelLaunch.Host
