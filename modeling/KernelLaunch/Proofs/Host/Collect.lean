import KernelLaunch.ElementType
import KernelLaunch.Host.Complex
import KernelLaunch.Proofs.Except

/-!
Shapes under conversion of values to arrays. Only values within the maximum number of
dimensions are converted, and conversion adds none.
-/

namespace KernelLaunch.Host

theorem Value.leaves_ok {v : Value} {g : Grid Leaf} (h : v.leaves = .ok g) :
    v.leaves? = some g ∧ g.shape.length ≤ maxDimensions := by
  unfold Value.leaves at h
  split at h
  · next g' hleaves =>
    split at h
    · cases h
    · next hdims =>
      cases h
      exact ⟨hleaves, Nat.le_of_not_lt hdims⟩
  · cases h

theorem Value.leaves_array (a : HostArray) (h : a.tensor.shape.length ≤ maxDimensions) :
    (Value.array a).leaves = .ok (a.tensor.grid.map (Leaf.cell a.tensor.storage)) :=
  if_neg (Nat.not_lt.mpr h)

theorem Value.isSingle_array (a : HostArray) (h : a.tensor.shape.length ≤ maxDimensions) :
    (Value.array a).isSingle = .ok (a.tensor.size == 1) := by
  rw [Value.isSingle, Value.leaves_array a h]
  rfl

/-- A value is looked at only if its leaves can be. -/
theorem Value.leaves_of_isComplex {v : Value} {c : Bool} (h : v.isComplex = .ok c) :
    ∃ g, v.leaves = .ok g := by
  obtain ⟨g, hleaves, _⟩ := Steps.bind_ok_iff.mp h
  exact ⟨g, hleaves⟩

theorem Value.isComplex_array {a : HostArray} {c : Bool}
    (h : (Value.array a).isComplex = .ok c) :
    c = true ↔ ∃ parts, a.tensor.storage = .complex parts := by
  obtain ⟨_, _, hkind⟩ := Steps.bind_ok_iff.mp h
  have hstored : (Value.array a).kind = .stored a.tensor.storage := rfl
  rw [hstored] at hkind
  cases hs : a.tensor.storage with
  | complex parts =>
      rw [hs] at hkind
      cases hkind
      simp
  | _ =>
      rw [hs] at hkind
      cases hkind
      simp

theorem Value.collectAs_shape {target : Storage} {v : Value} {t : Tensor} {g : Grid Leaf}
    (hleaves : v.leaves = .ok g) (h : v.collectAs target = .ok t) : t.shape = g.shape := by
  have htake (hstore : (v.leaves >>= fun leaves => leaves.tryMap (Leaf.store target) >>= fun k =>
      .ok ⟨target, k.1⟩ : Except Failure Tensor) = .ok t) : t.shape = g.shape := by
    obtain ⟨g', hg', hrest⟩ := Steps.bind_ok_iff.mp hstore
    cases hleaves.symm.trans hg'
    obtain ⟨k, _, hresult⟩ := Steps.bind_ok_iff.mp hrest
    cases hresult
    exact k.2
  cases v with
  | array a =>
      obtain ⟨hsome, _⟩ := Value.leaves_ok hleaves
      cases h
      cases hsome
      rfl
  | list items => exact htake h
  | atom a =>
      cases a with
      | element s e =>
          obtain ⟨hsome, _⟩ := Value.leaves_ok hleaves
          cases h
          cases hsome
          rfl
      | _ => exact htake h

theorem Value.collectAs_storage {target : Storage} {v : Value} {t : Tensor}
    (h : v.collectAs target = .ok t) : t.storage = target := by
  have hstore (h : (v.leaves >>= fun leaves => leaves.tryMap (Leaf.store target) >>= fun k =>
      .ok ⟨target, k.1⟩ : Except Failure Tensor) = .ok t) : t.storage = target := by
    obtain ⟨_, _, h⟩ := Steps.bind_ok_iff.mp h
    obtain ⟨_, _, h⟩ := Steps.bind_ok_iff.mp h
    cases h
    rfl
  cases v with
  | array a =>
      cases h
      rfl
  | list items => exact hstore h
  | atom a =>
      cases a with
      | element s e =>
          cases h
          rfl
      | _ => exact hstore h

theorem Value.collect_shape {v : Value} {t : Tensor} {g : Grid Leaf} (hleaves : v.leaves = .ok g)
    (h : v.collect = .ok t) : t.shape = g.shape := by
  cases v with
  | array a =>
      obtain ⟨hsome, _⟩ := Value.leaves_ok hleaves
      cases h
      cases hsome
      rfl
  | atom | list =>
      obtain ⟨_, _, h⟩ := Steps.bind_ok_iff.mp h
      split at h
      · exact Value.collectAs_shape hleaves h
      · cases h

/-- A value is collected in its own storage type, if it has one. -/
theorem Value.collect_of_leaves {v : Value} {g : Grid Leaf} (hleaves : v.leaves = .ok g) :
    v.collect = match v.kind with
      | .stored s => v.collectAs s
      | _ => .error .wrongKind := by
  cases v with
  | array a => exact congrArg Except.ok a.tensor.convert_self.symm
  | atom a => exact (congrArg (· >>= fun _ => _) hleaves).trans rfl
  | list items => exact (congrArg (· >>= fun _ => _) hleaves).trans rfl

/-- A value holds one element if it does so once it is collected. -/
theorem Value.isSingle_of_shape {v : Value} {t : Tensor} {g : Grid Leaf}
    (hleaves : v.leaves = .ok g) (hshape : t.shape = g.shape) : v.isSingle = .ok (t.size == 1) := by
  have hsize : g.size = t.size := congrArg volume hshape.symm
  rw [Value.isSingle, hleaves, ← hsize]
  rfl

/-- Splitting doubles the number of elements. -/
theorem Value.size_of_split {v : Value} {parts : Tensor} (h : v.split = .ok parts) :
    ∃ n, parts.size = 2 * n := by
  obtain ⟨whole, _, hrest⟩ := Steps.bind_ok_iff.mp h
  split at hrest
  · cases hrest
  · cases hrest
    exact ⟨whole.size, rfl⟩

/-- Splitting leaves room for the new dimension. -/
theorem Value.split_dimensions {v : Value} {t : Tensor} (h : v.split = .ok t) :
    t.shape.length ≤ maxDimensions := by
  obtain ⟨whole, _, hrest⟩ := Steps.bind_ok_iff.mp h
  split at hrest
  · cases hrest
  · next hroom =>
    cases hrest
    change whole.shape.length + 1 ≤ maxDimensions
    omega

end KernelLaunch.Host
