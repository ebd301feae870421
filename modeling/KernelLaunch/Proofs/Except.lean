import Mathlib.Data.List.Forall2

/-!
Steps that may fail. A sequence of steps goes well if and only if each of them
does. Where a list is treated item by item, what comes of it is said place by
place. Steps may also work on a state, which keeps what has been done before a
failure.
-/

namespace KernelLaunch.Steps

variable {ε α β γ : Type}

theorem bind_ok_iff {x : Except ε α} {f : α → Except ε β} {b : β} :
    (x >>= f) = .ok b ↔ ∃ a, x = .ok a ∧ f a = .ok b := by
  cases x with
  | error e => simp [bind, Except.bind]
  | ok a => simp [bind, Except.bind]

theorem bind_error_iff {x : Except ε α} {f : α → Except ε β} {e : ε} :
    (x >>= f) = .error e ↔ x = .error e ∨ ∃ a, x = .ok a ∧ f a = .error e := by
  cases x with
  | error e' => simp [bind, Except.bind]
  | ok a => simp [bind, Except.bind]

theorem map_ok_iff {x : Except ε α} {f : α → β} {b : β} :
    x.map f = .ok b ↔ ∃ a, x = .ok a ∧ f a = b := by
  cases x with
  | error e => simp [Except.map]
  | ok a => simp [Except.map]

theorem exists_ok_of_isSome {x : Except ε α} (h : x.toOption.isSome = true) :
    ∃ a, x = .ok a := by
  cases x with
  | error e => cases h
  | ok a => exact ⟨a, rfl⟩

/-- A list is treated with success if each of its items is, on its own. -/
theorem mapM_ok_iff {f : α → Except ε β} {xs : List α} {ys : List β} :
    xs.mapM f = .ok ys ↔ List.Forall₂ (fun x y => f x = .ok y) xs ys := by
  induction xs generalizing ys with
  | nil =>
      rw [List.mapM_nil, List.forall₂_nil_left_iff]
      exact ⟨fun h => (Except.ok.inj h).symm, fun h => congrArg Except.ok h.symm⟩
  | cons x xs ih =>
      rw [List.mapM_cons, bind_ok_iff, List.forall₂_cons_left_iff]
      constructor
      · rintro ⟨y, hy, hrest⟩
        obtain ⟨rest, hxs, hresult⟩ := bind_ok_iff.mp hrest
        exact ⟨y, rest, hy, ih.mp hxs, (Except.ok.inj hresult).symm⟩
      · rintro ⟨y, rest, hy, hrest, rfl⟩
        exact ⟨y, hy, bind_ok_iff.mpr ⟨rest, ih.mpr hrest, rfl⟩⟩

/-- A list is treated up to the first item that fails. -/
theorem mapM_stops {f : α → Except ε β} {earlier later : List α} {a : α} {ys : List β} {e : ε}
    (h : earlier.mapM f = .ok ys) (hfails : f a = .error e) :
    (earlier ++ a :: later).mapM f = .error e := by
  rw [List.mapM_append, List.mapM_cons, h, hfails]
  rfl

/-- Two steps agree, in what is looked at, if both fail for the same reason or both
go well with what looks the same. -/
theorem agree_cases {x : Except ε α} {y : Except ε β} {p : α → γ} {q : β → γ}
    (h : x.map p = y.map q) :
    (∃ e, x = .error e ∧ y = .error e) ∨ ∃ a b, x = .ok a ∧ y = .ok b ∧ p a = q b := by
  cases x with
  | error e =>
      cases y with
      | error e' =>
          cases h
          exact .inl ⟨e, rfl, rfl⟩
      | ok b => cases h
  | ok a =>
      cases y with
      | error e' => cases h
      | ok b => exact .inr ⟨a, b, rfl, rfl, Except.ok.inj h⟩

/-- Two sequences of steps agree if their first steps do and what follows does. -/
theorem bind_agree {α' β' γ' : Type} {x : Except ε α} {y : Except ε β} {p : α → γ} {q : β → γ}
    {f : α → Except ε α'} {g : β → Except ε β'} {p' : α' → γ'} {q' : β' → γ'}
    (hfirst : x.map p = y.map q) (hnext : ∀ a b, p a = q b → (f a).map p' = (g b).map q') :
    (x >>= f).map p' = (y >>= g).map q' := by
  rcases agree_cases hfirst with ⟨e, rfl, rfl⟩ | ⟨a, b, rfl, rfl, hab⟩
  · rfl
  · exact hnext a b hab

/-- Two treatments of a list that agree on each item agree on the list. -/
theorem mapM_agree {f : α → Except ε β} {g : α → Except ε γ} {δ : Type} {p : β → δ} {q : γ → δ}
    {xs : List α} (h : ∀ x ∈ xs, (f x).map p = (g x).map q) :
    (xs.mapM f).map (List.map p) = (xs.mapM g).map (List.map q) := by
  induction xs with
  | nil => rfl
  | cons x xs ih =>
      have hxs := ih fun z hz => h z (List.mem_cons_of_mem x hz)
      rw [List.mapM_cons, List.mapM_cons]
      apply bind_agree (h x List.mem_cons_self)
      intro b c hhead
      apply bind_agree hxs
      intro bs cs htail
      exact congrArg Except.ok (congrArg₂ List.cons hhead htail)

/-- What stands in a place of one list stands in relation to what stands in the
same place of the other. -/
theorem place {R : α → β → Prop} {as : List α} {bs : List β} (h : List.Forall₂ R as bs) {i : Nat}
    {a : α} (ha : as[i]? = some a) : ∃ b, bs[i]? = some b ∧ R a b := by
  induction h generalizing i with
  | nil => cases ha
  | @cons a' b' _ _ hab _ ih =>
      cases i with
      | zero =>
          cases ha
          exact ⟨b', rfl, hab⟩
      | succ i => exact ih ha

/-- If each item stands in relation to something, the whole list does, place by place. -/
theorem exists_forall₂ {R : α → β → Prop} {as : List α} (h : ∀ a ∈ as, ∃ b, R a b) :
    ∃ bs, List.Forall₂ R as bs := by
  induction as with
  | nil => exact ⟨[], .nil⟩
  | cons a as ih =>
      obtain ⟨b, hb⟩ := h a List.mem_cons_self
      obtain ⟨bs, hbs⟩ := ih fun a' ha' => h a' (List.mem_cons_of_mem a ha')
      exact ⟨b :: bs, .cons hb hbs⟩

section Stateful

variable {σ : Type}

/-- The outcome of steps on a state, and the state after them. -/
def perform (x : ExceptT ε (StateM σ) α) (s : σ) : Except ε α × σ := x.run.run s

@[simp] theorem perform_pure (a : α) (s : σ) :
    perform (pure a : ExceptT ε (StateM σ) α) s = (.ok a, s) := rfl

@[simp] theorem perform_throw (e : ε) (s : σ) :
    perform (throw e : ExceptT ε (StateM σ) α) s = (.error e, s) := rfl

@[simp] theorem perform_get (s : σ) :
    perform (get : ExceptT ε (StateM σ) σ) s = (.ok s, s) := rfl

@[simp] theorem perform_modify (f : σ → σ) (s : σ) :
    perform (modify f : ExceptT ε (StateM σ) PUnit) s = (.ok ⟨⟩, f s) := rfl

@[simp] theorem perform_lift (r : Except ε α) (s : σ) :
    perform (liftM r : ExceptT ε (StateM σ) α) s = (r, s) := rfl

/-- A first step that fails ends the whole; what it did to the state stays. -/
theorem perform_bind (x : ExceptT ε (StateM σ) α) (f : α → ExceptT ε (StateM σ) β) (s : σ) :
    perform (x >>= f) s = match perform x s with
      | (.ok a, after) => perform (f a) after
      | (.error e, after) => (.error e, after) := by
  cases h : perform x s with
  | mk r after =>
      have hrun : x s = (r, after) := h
      simp only [perform, bind, ExceptT.bind, ExceptT.mk, ExceptT.run, StateT.bind, StateT.run,
        ExceptT.bindCont, hrun]
      cases r with
      | error e => rfl
      | ok a => rfl

theorem perform_map (g : α → β) (x : ExceptT ε (StateM σ) α) (s : σ) :
    perform (g <$> x) s = ((perform x s).1.map g, (perform x s).2) := by
  rw [map_eq_pure_bind, perform_bind]
  rcases perform x s with ⟨e | a, after⟩ <;> rfl

theorem perform_map_ok_iff {g : α → β} {x : ExceptT ε (StateM σ) α} {s after : σ} {b : β} :
    perform (g <$> x) s = (.ok b, after) ↔ ∃ a, perform x s = (.ok a, after) ∧ b = g a := by
  rw [perform_map]
  rcases perform x s with ⟨e | a, after'⟩
  · simp [Except.map]
  · simp [Except.map, eq_comm, and_comm]

end Stateful

end KernelLaunch.Steps
