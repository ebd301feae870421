import KernelLaunch.Host.Complex

/-!
Content of values: of an array its storage type, shape and elements, without memory order
and writability. Every conversion depends on the content only.
-/

namespace KernelLaunch.Host.Value

/-- A value in fresh memory. -/
def content : Value → Value
  | .array a => .ofTensor a.tensor
  | v => v

/-- Values that hold the same are the same, but for the memory of arrays. -/
theorem content_cases {v v' : Value} (h : v.content = v'.content) :
    v = v' ∨ ∃ a a', v = .array a ∧ v' = .array a' ∧ a.tensor = a'.tensor := by
  cases v with
  | array a =>
      cases v' with
      | array a' =>
          injection h with h
          injection h with htensor
          exact .inr ⟨a, a', rfl, rfl, htensor⟩
      | _ => cases h
  | _ =>
      cases v' with
      | array a' => cases h
      | _ => exact .inl h

@[simp] theorem leaves_content (v : Value) : v.content.leaves = v.leaves := by
  cases v <;> rfl

@[simp] theorem kind_content (v : Value) : v.content.kind = v.kind := by
  cases v <;> rfl

@[simp] theorem collect_content (v : Value) : v.content.collect = v.collect := by
  cases v <;> rfl

@[simp] theorem collectAs_content (s : Storage) (v : Value) :
    v.content.collectAs s = v.collectAs s := by
  cases v <;> rfl

@[simp] theorem isSingle_content (v : Value) : v.content.isSingle = v.isSingle := by
  unfold isSingle
  rw [leaves_content]

@[simp] theorem join_content (v : Value) : v.content.join = v.join := by
  unfold join
  rw [leaves_content, kind_content, collect_content]

end KernelLaunch.Host.Value
